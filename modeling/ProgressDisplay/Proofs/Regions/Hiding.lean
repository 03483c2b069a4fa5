import ProgressDisplay.Proofs.Regions.StatusShown

/-!
# Output after hiding

Hiding takes effect with the next redraw. Until then the rows of the block still hold what it drew,
but nothing is scrolled out of their way any more. A line that is printed in between may be written
on one of these rows, and the redraw then erases it with the row.

* `hideAndPrint_begins_iff`: the printed line stays exactly if the line of the block that belongs on
  its row had drawn nothing.
-/

namespace ProgressDisplay

namespace StatusBlock.Accurate

variable {b : StatusBlock} {g : Grid} {text : Position} {l : AnchoredLine} {r : Nat}

/-- A hidden block leaves the rows alone that belong to lines without anything drawn. -/
theorem paintAll_of_hidden (h : b.Accurate g text) (hv : b.visible = false)
    (hdrawn : ∀ l ∈ b.lines, l.anchor = r → l.drawn = []) :
    AnchoredLine.paintAll b.lines g r = g r := by
  by_cases hmem : ∃ l ∈ b.lines, l.anchor = r
  · obtain ⟨l, hl, rfl⟩ := hmem
    have hstale : l.stale = false := AnchoredLine.stale_of_hidden ((h.visible l hl).trans hv)
      (h.lines l hl) (hdrawn l hl rfl)
    rw [AnchoredLine.paintAll_of_mem h.nodup hl, AnchoredLine.paint, hstale]
    rfl
  · exact AnchoredLine.paintAll_of_not_mem fun l hl hsame => hmem ⟨l, hl, hsame⟩

/-- It erases the rows of the other lines. -/
theorem shows_nil_of_hidden (h : b.Accurate g text) (hv : b.visible = false) (hl : l ∈ b.lines)
    (hdrawn : l.drawn ≠ []) : (AnchoredLine.paintAll b.lines g).Shows l.anchor [] := by
  have hhidden : l.visible = false := (h.visible l hl).trans hv
  have hstale : l.stale = true := by
    simp [AnchoredLine.stale, hhidden, (h.lines l hl).dirty, hdrawn]
  have hshown : l.shown = [] := by simp [AnchoredLine.shown, hhidden]
  have hrow := AnchoredLine.paintAll_of_mem h.nodup hl (g := g)
  rw [AnchoredLine.paint, if_pos hstale, hshown] at hrow
  exact Grid.shows_setRow.of_eq hrow

/-- What a hidden block leaves of text that its redraw finds on a row. -/
theorem begins_of_hidden_iff (h : b.Accurate g text) (hv : b.visible = false) {line : List Char}
    (hline : g.Begins r line) :
    (AnchoredLine.paintAll b.lines g).Begins r line ↔
      (∀ l ∈ b.lines, l.anchor = r → l.drawn = []) ∨ ∀ c ∈ line, c = ' ' := by
  by_cases hbare : ∀ l ∈ b.lines, l.anchor = r → l.drawn = []
  · have hkept : (AnchoredLine.paintAll b.lines g).Begins r line :=
      hline.of_eq (h.paintAll_of_hidden hv hbare)
    exact iff_of_true hkept (Or.inl hbare)
  · have hdrawn : ∃ l ∈ b.lines, l.anchor = r ∧ l.drawn ≠ [] := by
      simpa using hbare
    obtain ⟨l, hl, rfl, hsome⟩ := hdrawn
    have herased := h.shows_nil_of_hidden hv hl hsome
    refine ⟨fun hkept => Or.inr fun c hc => ?_, fun hblank i hi => ?_⟩
    · obtain ⟨i, hi, rfl⟩ := List.mem_iff_getElem.mp hc
      have hcell := hkept i hi
      rw [herased i, List.getD_eq_getElem _ _ hi] at hcell
      exact hcell.symm
    · have hcell : line.getD i ' ' = ' ' := by
        rw [List.getD_eq_getElem _ _ hi]
        exact hblank.resolve_left hbare _ (List.getElem_mem hi)
      rw [hcell]
      exact herased i

end StatusBlock.Accurate

namespace Page

variable {s : Page} {g : Grid} {t : Transcript} {text : List Char}

theorem withoutReturn_of_measured (h : Text.Measured text) : withoutReturn text = text := by
  unfold withoutReturn
  split
  · rename_i hlast
    exact absurd (List.mem_of_getLast? hlast) (h.not_mem rfl)
  · rfl

/-- Hides the block, prints a line and flushes. -/
def hideAndPrint (line : String) : List PageAction :=
  [.setVisible false, .output (.line line), .flush]

/-- What a line printed on a page with a hidden block leaves on its row. -/
theorem Sound.print_of_hidden (h : s.Sound g t) (hv : s.block.visible = false)
    (hcol : s.text.col = 0) {line : String} (hmeasured : Text.Measured line.toList)
    (hne : line.toList ≠ []) (hfits : (t.typeAll line.toList).Fits) :
    (s.output (.line line)).Ensures fun u => ∃ g',
      u.Accurate g' (t.typeAll line.toList).endLine ∧
      g'.Begins (max s.text.row 1) line.toList ∧
      u.block = s.block.raise (if s.text.row = 0 then 1 else 0) := by
  have hline := Transcript.measuredLine_of_measured hmeasured
  have hclear : s.vacateLine = .done s := vacateLine_of_clear (overlap_of_hidden hv true)
  have hwrite : s.write line = s.writeText line.toList := by
    rw [write, Text.pieces_of_not_mem (hmeasured.not_mem rfl), writeLines,
      withoutReturn_of_measured hmeasured]
  have hwritten : (s.write line).Ensures fun u =>
      u.Accurate (g.write s.text.row 0 line.toList) (t.typeAll line.toList) ∧
      u.text = { s.text with col := line.toList.length } ∧ u.block = s.block := by
    rw [hwrite, Page.writeText, if_neg hne, hclear, Attempt.done_andThen,
      overlap_of_hidden hv true]
    refine (drawLine_ensures h.toAccurate hline hne hfits false s.style).mono fun u hu => ?_
    rw [hcol, Transcript.expand_of_measured hmeasured, Nat.zero_add] at hu
    exact hu
  refine hwritten.andThen fun u hu => ?_
  obtain ⟨hacc, htext, hblock⟩ := hu
  have hhidden : u.block.visible = false := by rw [hblock]; exact hv
  rw [Page.endLine, vacateLine_of_clear (overlap_of_hidden hhidden true), Attempt.done_andThen]
  refine (drawBreak_ensures hacc _).mono fun v hv => ?_
  obtain ⟨hbroken, -, hraised⟩ := hv
  rw [htext] at hbroken hraised
  rw [hblock] at hraised
  refine ⟨_, hbroken, ?_, hraised⟩
  have hplace : max s.text.row 1 = s.text.row + (if s.text.row = 0 then 1 else 0) := by
    split <;> omega
  have hbegins : (g.write s.text.row 0 line.toList).Begins s.text.row line.toList :=
    Grid.begins_nil.write
  rw [hplace]
  exact (hbegins.eraseFromIf _).scroll _

/-- What is left of a line that is printed between hiding the block and the redraw that erases
it. -/
theorem Sound.hideAndPrint_iff (h : s.Sound g t) (hcol : s.text.col = 0) {line : String}
    (hmeasured : Text.Measured line.toList) (hne : line.toList ≠ [])
    (hfits : (t.typeAll line.toList).Fits) :
    (s.run (hideAndPrint line)).Ensures fun u =>
      u.terminal.screen.cells.Begins (max s.text.row 1) line.toList ↔
        (∀ l ∈ s.block.lines, l.anchor = max s.text.row 1 → l.drawn = []) ∨
          ∀ c ∈ line.toList, c = ' ' := by
  have hprinted := (h.setVisible false).print_of_hidden rfl hcol hmeasured hne hfits
  have hrun : s.run (hideAndPrint line) =
      ((s.setVisible false).run [.output (.line line)]).andThen Page.flush :=
    run_concat [.setVisible false, .output (.line line)] .flush s
  rw [hrun, run_singleton]
  refine hprinted.andThen fun a ha => ?_
  obtain ⟨g', hacc, hbegins, hblock⟩ := ha
  have hhidden : a.block.visible = false := by
    rw [hblock]
    rfl
  have hflushed : a.flush.Ensures fun u =>
      u.Accurate (AnchoredLine.paintAll a.block.lines g') (t.typeAll line.toList).endLine :=
    (redrawBlock_ensures_of_hidden hacc hhidden).andThen fun b hb =>
      (flushDevice_ensures hb.1).mono fun u hu => hu.1
  refine hflushed.mono fun u hu => ?_
  -- hiding and printing change neither what a line drew nor where it belongs
  have hsame : (∀ l ∈ a.block.lines, l.anchor = max s.text.row 1 → l.drawn = []) ↔
      ∀ l ∈ s.block.lines, l.anchor = max s.text.row 1 → l.drawn = [] := by
    rw [hblock]
    simp [Page.setVisible, StatusBlock.raise, StatusBlock.setVisible, AnchoredLine.raise,
      AnchoredLine.setVisible]
  rw [hu.terminal, ← hsame]
  exact hacc.block.begins_of_hidden_iff hhidden hbegins

/-- A line that is printed between hiding the block and the redraw that erases it stays on its row
exactly if the line of the block that belongs there had drawn nothing, or nothing is to be seen of
the printed line anyway. -/
theorem hideAndPrint_begins_iff {device : Device} (hfresh : device.output = []) (palette : Palette)
    (workers : Nat) (actions : List PageAction) (line : String)
    (hmeasured : ∀ a ∈ actions, a.Measured) (hline : Text.Measured line.toList)
    (hne : line.toList ≠ [])
    (hfits : (Transcript.ofActions workers (actions ++ hideAndPrint line)).Fits)
    (hcol : ((start device palette workers).run actions).state.text.col = 0)
    (hok : ((start device palette workers).run (actions ++ hideAndPrint line)).failure = none) :
    ((start device palette workers).run
        (actions ++ hideAndPrint line)).state.terminal.screen.cells.Begins
      (max ((start device palette workers).run actions).state.text.row 1) line.toList ↔
    (∀ l ∈ ((start device palette workers).run actions).state.block.lines,
      l.anchor = max ((start device palette workers).run actions).state.text.row 1 →
      l.drawn = []) ∨ ∀ c ∈ line.toList, c = ' ' := by
  rw [Transcript.ofActions, List.foldl_append] at hfits
  rw [run_append] at hok ⊢
  obtain ⟨hfirst, hlast⟩ := Attempt.andThen_failure_none_iff.mp hok
  obtain ⟨g, hsound⟩ := (sound_start hfresh palette workers).run hmeasured
    (Transcript.Fits.of_foldl_act hfits) hfirst
  rw [Attempt.andThen_of_none hfirst]
  exact hsound.hideAndPrint_iff hcol hline hne (Transcript.Fits.of_endLine hfits) hlast

theorem hideAndPrint_begins_iff_of_idle :
    ((start {} .blank 1).run ([.setLine 1 (.plain "job"), .flush] ++ hideAndPrint "log")
        ).state.terminal.screen.cells.Begins 2 "log".toList ↔
      (∀ l ∈ ((start {} .blank 1).run [.setLine 1 (.plain "job"), .flush]).state.block.lines,
        l.anchor = 2 → l.drawn = []) ∨ ∀ c ∈ "log".toList, c = ' ' :=
  hideAndPrint_begins_iff rfl .blank 1 [.setLine 1 (.plain "job"), .flush] "log" (by decide)
    (by decide) (by decide) (by decide) (by decide) (by decide)

/-- A printed line is lost although the block was drawn and the output was at the start of a
line. -/
theorem not_hideAndPrint_begins :
    ¬∀ (device : Device) (palette : Palette) (workers : Nat) (actions : List PageAction)
      (line : String), device.output = [] → (∀ a ∈ actions, a.Measured) →
      Text.Measured line.toList → line.toList ≠ [] →
      (Transcript.ofActions workers (actions ++ hideAndPrint line)).Fits →
      ((start device palette workers).run actions).state.block.visible = true →
      (∀ l ∈ ((start device palette workers).run actions).state.block.lines, l.upToDate = true) →
      ((start device palette workers).run actions).state.text.col = 0 →
      ((start device palette workers).run (actions ++ hideAndPrint line)).failure = none →
      ((start device palette workers).run
          (actions ++ hideAndPrint line)).state.terminal.screen.cells.Begins
        (max ((start device palette workers).run actions).state.text.row 1) line.toList := by
  intro h
  have hkept := h {} .blank 0 [.setLine 0 (.plain "BUILD"), .flush] "log" rfl (by decide)
    (by decide) (by decide) (by decide) (by decide) (by decide) (by decide) (by decide)
  have hcell := hkept 0 (by decide)
  revert hcell
  decide +kernel

end Page

end ProgressDisplay
