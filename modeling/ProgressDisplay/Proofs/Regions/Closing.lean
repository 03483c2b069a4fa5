import ProgressDisplay.Proofs.Regions.OutputKept
import ProgressDisplay.Proofs.Regions.Separation

/-!
# Where a close leaves the cursor

A close erases the block and takes the cursor to where the block stood. While the block is visible
it stands at the bottom of the terminal, and whatever is drawn takes the output to its top row or
just above. So at the start of a line the output goes on where the block stood, and the close leaves
the cursor there. A block that nothing was drawn with has its place as well, but the output has not
been taken there.

* `Based.act`, `Based.run`: what is kept as long as the block is visible.
* `Kept.close_ensures`, `Kept.close_clears`: what a close does.
* `close_rests_iff`: the cursor is left under the output exactly if anything was drawn before.
-/

namespace ProgressDisplay

open Attempt

/-- A block that is visible stays so. -/
def PageAction.KeepsVisible : PageAction → Prop
  | .close => False
  | .setVisible visible => visible = true
  | .output _ | .setLine .. | .flush => True

instance : (a : PageAction) → Decidable a.KeepsVisible
  | .close => inferInstanceAs (Decidable False)
  | .setVisible visible => inferInstanceAs (Decidable (visible = true))
  | .output _ | .setLine .. | .flush => inferInstanceAs (Decidable True)

namespace Page

variable {s t u : Page} {g : Grid} {transcript : Transcript} {a : PageAction}

/-! ## A block that stays visible -/

/-- The block is visible and takes itself to stand at the bottom of the terminal. -/
structure Based (s : Page) : Prop extends s.Tidy where
  shown : s.block.visible = true
  bottom : s.block.position = { row := s.block.top }

namespace Based

theorem of_raise_zero (h : t.Based) (hu : u.Tidy) (hblock : u.block = t.block.raise 0) :
    u.Based where
  toTidy := hu
  shown := by
    rw [hblock]
    exact h.shown
  bottom := by
    have hlow : t.block.position.row ≤ Position.limit := by
      rw [h.bottom]
      exact (Nat.sub_le _ 1).trans h.low
    rw [hblock, StatusBlock.top_raise]
    exact (Position.raise_zero hlow).trans h.bottom

/-- Before anything is written the output is just above the block. -/
theorem vacateLine (h : s.Based) :
    s.vacateLine.Ensures fun t => t.Based ∧ t.text.row = t.block.height := by
  intro hok
  obtain ⟨htidy, hfollows, hclear⟩ := h.toTidy.vacateLine hok
  obtain ⟨-, hsame, hrests⟩ := vacateLine_clears h.low hok
  have hv := hfollows.visible.trans h.shown
  refine ⟨⟨htidy, hv, ?_⟩, htidy.row_eq_of_clear hv hclear⟩
  by_cases hroom : s.overlap true = 0
  · rw [hsame hroom]
    exact h.bottom
  · exact (hrests hroom).bottom hv

theorem writeText (h : s.Based) (text : List Char) : (s.writeText text).Ensures Based := by
  unfold Page.writeText
  split
  · exact ensures_done h
  · refine h.vacateLine.andThen fun t ⟨ht, _⟩ => fun hok => ?_
    obtain ⟨hrow, hblock⟩ := drawText_stays (fun p hp =>
      (hp.eraseRestIf _).styled s.style fun q hq => hq.tabbed _) hok
    exact ht.of_raise_zero (ht.stay (drawText_follows t _ hok) hrow hblock).1 hblock

theorem endLine (h : s.Based) : s.endLine.Ensures Based := by
  refine h.vacateLine.andThen fun t ⟨ht, hrow⟩ => fun hok => ?_
  obtain ⟨htext, hblock⟩ := drawBreak_descends t _ hok
  have htidy := (ht.descend (drawText_follows t _ hok) htext hblock).1
  have hup : t.text.row ≠ 0 := hrow ▸ ht.nonempty.ne'
  rw [if_neg hup] at hblock
  exact ht.of_raise_zero htidy hblock

theorem writeLines {lines : List (List Char)} (h : s.Based) :
    (Page.writeLines lines s).Ensures Based := by
  induction lines generalizing s with
  | nil => exact ensures_done h
  | cons line rest ih =>
    cases rest with
    | nil => exact h.writeText _
    | cons next others =>
      exact ((h.writeText _).andThen fun _ ht => ht.endLine).andThen fun _ hu => ih hu

theorem output (h : s.Based) (request : OutputRequest) : (s.output request).Ensures Based := by
  cases request with
  | style style =>
    exact ensures_done
      ⟨⟨⟨h.nonempty, h.low, h.anchors, h.visible⟩, h.row, h.anchored⟩, h.shown, h.bottom⟩
  | text content => exact h.writeLines
  | endLine => exact h.endLine
  | line content => exact h.writeLines.andThen fun _ ht => ht.endLine

theorem flush (h : s.Based) : s.flush.Ensures Based := by
  have hredrawn : s.redrawBlock.Ensures Based := by
    intro hok
    obtain ⟨htidy, hfollows, -⟩ := h.toTidy.redrawBlock hok
    have hv := hfollows.visible.trans h.shown
    exact ⟨htidy, hv, (redrawBlock_rests h.low hok).rests.bottom hv⟩
  refine hredrawn.andThen fun t ht => ensures_ofExcept fun w _ => ?_
  exact ⟨⟨⟨ht.nonempty, ht.low, ht.anchors, ht.visible⟩, ht.row, ht.anchored⟩, ht.shown, ht.bottom⟩

theorem act (h : s.Based) (hvisible : a.KeepsVisible) : (s.act a).Ensures Based := by
  cases a with
  | output request => exact h.output request
  | setLine index content =>
    refine ensures_done ⟨h.toTidy.setLine index content, h.shown, ?_⟩
    rw [StatusBlock.top_setLine]
    exact h.bottom
  | flush => exact h.flush
  | close => exact hvisible.elim
  | setVisible visible =>
    obtain rfl : visible = true := hvisible
    refine ensures_done ⟨h.toTidy.setVisible true, rfl, ?_⟩
    show s.block.position = { row := (s.block.setVisible true).top }
    rw [StatusBlock.top_setVisible]
    exact h.bottom

end Based

/-- The output stays where it is, and so do the lines of the block. -/
structure Unmoved (u s : Page) : Prop where
  text : u.text = s.text
  height : u.block.height = s.block.height
  anchored : s.Anchored → u.Anchored

theorem Separated.of_unmoved (h : s.Separated) (hu : u.Unmoved s) : u.Separated where
  text := by
    rw [hu.text, StatusBlock.top, hu.height]
    exact h.text
  anchored := hu.anchored h.anchored

theorem unmoved_of_not_writes {request : OutputRequest} (hidle : ¬request.Writes) :
    (s.output request).Ensures fun u => u.Unmoved s := by
  cases request with
  | style style => exact ensures_done ⟨rfl, rfl, id⟩
  | text content =>
    -- the two texts that nothing is written of
    have hnothing : content = "" ∨ content = "\r" := by
      by_contra hsome
      exact hidle (not_or.mp hsome)
    rcases hnothing with rfl | rfl <;> exact ensures_done ⟨rfl, rfl, id⟩
  | endLine | line content => exact absurd trivial hidle

theorem unmoved_of_not_draws (hvisible : a.KeepsVisible) (hidle : ¬a.Draws) :
    (s.act a).Ensures fun u => u.Unmoved s := by
  cases a with
  | output request => exact unmoved_of_not_writes hidle
  | setLine index content =>
    refine ensures_done ⟨rfl, StatusBlock.height_setLine, fun hs l hl => ?_⟩
    rcases StatusBlock.mem_setLine hl with hl | ⟨d, hd, rfl⟩
    · exact hs l hl
    · exact hs d hd
  | flush => exact absurd trivial hidle
  | close => exact hvisible.elim
  | setVisible visible =>
    exact ensures_done ⟨rfl, StatusBlock.height_setVisible, fun hs => List.forall_mem_map.mpr hs⟩

/-- Once anything was drawn, output and block are apart. Until then the output has not moved. -/
theorem Based.run {actions : List PageAction} (h : s.Based)
    (hvisible : ∀ a ∈ actions, a.KeepsVisible) :
    (s.run actions).Ensures fun u => u.Based ∧
      ((s.Separated ∨ ∃ a ∈ actions, a.Draws) → u.Separated) ∧
      ((∀ a ∈ actions, ¬a.Draws) → u.text = s.text ∧ u.block.height = s.block.height) := by
  induction actions generalizing s with
  | nil =>
    refine ensures_done ⟨h, fun hs => hs.resolve_right ?_, fun _ => ⟨rfl, rfl⟩⟩
    rintro ⟨a, ha, -⟩
    cases ha
  | cons a rest ih =>
    obtain ⟨hfirst, hrest⟩ := List.forall_mem_cons.mp hvisible
    have hact : (s.act a).Ensures fun t => t.Based ∧ (s.Separated ∨ a.Draws → t.Separated) ∧
        (¬a.Draws → t.Unmoved s) := by
      intro hok
      refine ⟨h.act hfirst hok, fun hs => ?_, fun hidle => unmoved_of_not_draws hfirst hidle hok⟩
      by_cases hdraws : a.Draws
      · exact (h.toTidy.act a hok).2 h.shown hdraws
      · exact (hs.resolve_right hdraws).of_unmoved (unmoved_of_not_draws hfirst hdraws hok)
    refine hact.andThen fun t ⟨ht, hseparated, hunmoved⟩ => ?_
    refine (ih ht hrest).mono fun u ⟨hu, hlater, hidle⟩ =>
      ⟨hu, fun hs => hlater ?_, fun hnone => ?_⟩
    · rw [List.exists_mem_cons_iff, ← or_assoc] at hs
      exact hs.imp_left hseparated
    · obtain ⟨hnow, hthen⟩ := List.forall_mem_cons.mp hnone
      obtain ⟨htext, hheight⟩ := hidle hthen
      exact ⟨htext.trans (hunmoved hnow).text, hheight.trans (hunmoved hnow).height⟩

theorem based_start (device : Device) (palette : Palette) (workers : Nat) :
    (start device palette workers).Based where
  toTidy := tidy_start device palette workers
  shown := rfl
  bottom := by
    have hheight : (StatusBlock.ofWorkers workers).height =
        StatusBlock.totalHeight (StatusBlock.workerLines workers) := StatusBlock.length_emptyLines _
    show (StatusBlock.ofWorkers workers).position = { row := (StatusBlock.ofWorkers workers).top }
    rw [StatusBlock.top, hheight]
    rfl

/-! ## Closing -/

theorem act_close (s : Page) : s.act .close = s.close := rfl

/-- A close leaves nothing of the block, and the cursor where the block stood. -/
theorem Kept.close_ensures (h : s.Kept g transcript) :
    s.close.Ensures fun u => (∃ g', u.Kept g' transcript ∧ u.Unused g') ∧ u.text = s.text ∧
      u.writer.cursor = s.block.position := by
  have hhidden := (h.toSound.setVisible false).toAccurate
  have hredrawn : (s.setVisible false).redrawBlock.Ensures fun t =>
      (∃ g', t.Accurate g' transcript) ∧ t.text = s.text ∧ t.block.visible = false ∧
        t.writer.cursor = s.block.position := by
    intro hok
    obtain ⟨hacc, htext, hblock⟩ := redrawBlock_ensures_of_hidden hhidden rfl hok
    have hcursor := (redrawBlock_rests hhidden.block.low hok).rests.cursor
    rw [hblock] at hcursor
    refine ⟨⟨_, hacc⟩, htext, ?_, hcursor⟩
    rw [hblock]
    rfl
  have hclosed : s.close.Ensures fun u => u.text = s.text ∧ u.block.visible = false ∧
      u.writer.cursor = s.block.position := by
    refine hredrawn.andThen fun t ⟨⟨_, hacc⟩, htext, hv, hcursor⟩ => ?_
    refine (flushDevice_ensures hacc).mono fun u ⟨_, hsame, hblock, hstays⟩ => ?_
    exact ⟨hsame.trans htext, hblock ▸ hv, hstays.trans hcursor⟩
  intro hok
  obtain ⟨g', hkept⟩ := h.close hok
  obtain ⟨htext, hv, hcursor⟩ := hclosed hok
  refine ⟨⟨g', hkept, hkept.below.resolve_left fun hsettled => ?_⟩, htext, hcursor⟩
  exact Bool.false_ne_true (hv.symm.trans hsettled.visible)

/-- What stands on the terminal after a close at the start of a line. -/
theorem Kept.close_clears (h : s.Kept g transcript) (hcol : s.text.col = 0) :
    s.close.Ensures fun u => u.text = s.text ∧
      u.terminal.screen.cells.Intact u.text transcript ∧
      (∀ r, r ≤ u.text.row → u.terminal.screen.cells.Shows r []) ∧
      u.terminal.screen.cursor = s.block.position := by
  refine h.close_ensures.mono fun u ⟨⟨g', hkept, hunused⟩, htext, hcursor⟩ => ?_
  rw [hkept.toAccurate.terminal]
  refine ⟨htext, hkept.intact, fun r hr => hunused.blank r ?_, hcursor⟩
  rw [htext] at hr ⊢
  exact (Nat.lt_or_eq_of_le hr).imp_right fun hsame => ⟨hsame, hcol⟩

/-- Output that is apart from the block goes on where the block stands, at the start of a line. -/
theorem Based.position_eq (h : s.Based) (hseparated : s.Separated) (hsound : s.Sound g transcript)
    (hcol : s.text.col = 0) : s.block.position = s.text := by
  have htop := h.top_add_one
  have hplaced := hseparated.text
  have hlow := hsound.placed
  rw [h.bottom]
  cases hplace : s.text with
  | mk row col =>
    simp only [hplace] at hplaced hlow hcol
    rw [Position.mk.injEq]
    omega

/-- After a run with the block visible throughout that ends at the start of a line, a close leaves
the output as it was written and nothing on the row where it goes on or below. It leaves the cursor
at the start of that row exactly if something was drawn in the run. -/
theorem close_rests_iff {device : Device} (hfresh : device.output = []) (palette : Palette)
    (workers : Nat) (actions : List PageAction) (hmeasured : ∀ a ∈ actions, a.Measured)
    (hvisible : ∀ a ∈ actions, a.KeepsVisible) (hfits : (Transcript.ofActions workers actions).Fits)
    (hcol : ((start device palette workers).run actions).state.text.col = 0)
    (hok : ((start device palette workers).run (actions ++ [.close])).failure = none) :
    let before := ((start device palette workers).run actions).state
    let after := ((start device palette workers).run (actions ++ [.close])).state
    after.text = before.text ∧
      after.terminal.screen.cells.Intact after.text (Transcript.ofActions workers actions) ∧
      (∀ r, r ≤ after.text.row → after.terminal.screen.cells.Shows r []) ∧
      (after.terminal.screen.cursor = after.text ↔ ∃ a ∈ actions, a.Draws) := by
  have hclosing : ∀ a ∈ actions, a ≠ .setVisible false := by
    rintro _ ha rfl
    exact Bool.false_ne_true (hvisible _ ha)
  rw [run_concat] at hok ⊢
  obtain ⟨hrun, hclose⟩ := andThen_failure_none_iff.mp hok
  obtain ⟨g, hkept⟩ := (kept_start hfresh palette workers).run hmeasured hclosing hfits hrun
  obtain ⟨hbased, hdrawn, hidle⟩ := (based_start device palette workers).run hvisible hrun
  rw [andThen_of_none hrun, act_close]
  obtain ⟨htext, hintact, hblank, hcursor⟩ := hkept.close_clears hcol hclose
  refine ⟨htext, hintact, hblank, ?_⟩
  rw [htext]
  refine ⟨fun hrests => ?_, fun hdraws => ?_⟩
  · -- where nothing was drawn, the output is on the bottom row and the block has its place above
    by_contra hnone
    obtain ⟨hstays, hsame⟩ := hidle fun a ha hdraws => hnone ⟨a, ha, hdraws⟩
    have hplace := hbased.bottom.symm.trans (hcursor.symm.trans (hrests.trans hstays))
    have hheight := hsame.trans (StatusBlock.length_ofWorkers workers)
    have htop : ((start device palette workers).run actions).state.block.top = 0 :=
      congrArg Position.row hplace
    rw [StatusBlock.top, hheight] at htop
    cases htop
  · exact hcursor.trans (hbased.position_eq (hdrawn (Or.inr hdraws)) hkept.toSound hcol)

theorem close_rests_iff_of_drawn :
    let actions : List PageAction := [.setLine 0 (.plain "BUILD"), .output (.line "a\tb"), .flush,
      .setLine 1 (.plain "job"), .output (.text "one\r\n")]
    let after := ((start {} .blank 1).run (actions ++ [.close])).state
    after.text = { row := 2 } ∧
      after.terminal.screen.cells.Intact after.text
        ⟨["a       b".toList, "one".toList], [], [.plain "BUILD", .plain "job", []]⟩ ∧
      (∀ r, r ≤ after.text.row → after.terminal.screen.cells.Shows r []) ∧
      (after.terminal.screen.cursor = after.text ↔ ∃ a ∈ actions, a.Draws) :=
  close_rests_iff rfl .blank 1 [.setLine 0 (.plain "BUILD"), .output (.line "a\tb"), .flush,
    .setLine 1 (.plain "job"), .output (.text "one\r\n")] (by decide) (by decide) (by decide)
    (by decide) (by decide)

/-- A close does not always leave the cursor where the output goes on. If nothing was drawn, it
takes the cursor up to the row of the block's top line. -/
theorem not_close_rests :
    ¬∀ (device : Device) (palette : Palette) (workers : Nat) (actions : List PageAction),
      device.output = [] → (∀ a ∈ actions, a.Measured) → (∀ a ∈ actions, a.KeepsVisible) →
      (Transcript.ofActions workers actions).Fits →
      ((start device palette workers).run actions).state.text.col = 0 →
      ((start device palette workers).run (actions ++ [.close])).failure = none →
      ((start device palette workers).run (actions ++ [.close])).state.terminal.screen.cursor =
        ((start device palette workers).run (actions ++ [.close])).state.text := by
  intro h
  have hrests := h {} .blank 0 [] rfl (by decide) (by decide) (by decide) (by decide) (by decide)
  revert hrests
  decide +kernel

end Page

end ProgressDisplay
