import ProgressDisplay.Proofs.Regions.Actions

/-!
# The block is shown as it is

A flush redraws only the lines that it takes to be out of date. Nothing is lost by that: after any
run of actions, a flush with the block visible leaves the content of every line on its row.

* `flush_showsContents`: after the flush the terminal shows what the lines were given last.
-/

namespace ProgressDisplay

/-- The rows at the bottom hold these contents and nothing else, top first, and the cursor rests
below them all. -/
structure Terminal.ShowsContents (terminal : Terminal) (contents : List Line) : Prop where
  rows : ∀ i content, contents[i]? = some content →
    terminal.screen.cells.Shows (contents.length - 1 - i) content.characters
  cursor : terminal.screen.cursor = .bottomLeft
  reading : terminal.reading = .ground

namespace Page

variable {s : Page} {g : Grid} {t : Transcript}

theorem Accurate.terminal (h : s.Accurate g t) :
    s.terminal = { screen := { cells := g, cursor := s.writer.cursor } } := h.shows.replayed

theorem Accurate.showsContents (h : s.Accurate g t) (hsettled : s.Settled)
    (hdrawn : ∀ l ∈ s.block.lines, l.drawn = l.content)
    (hcursor : s.writer.cursor = .bottomLeft) : s.terminal.ShowsContents t.contents := by
  rw [h.terminal]
  refine ⟨fun i content hcontent => ?_, hcursor, rfl⟩
  rw [← h.contents, StatusBlock.contents, List.getElem?_map] at hcontent
  obtain ⟨l, hl, rfl⟩ := Option.map_eq_some_iff.mp hcontent
  have hmem : l ∈ s.block.lines := List.mem_of_getElem? hl
  have hlength : t.contents.length = s.block.height := by
    rw [← h.contents]
    exact List.length_map _
  -- the output stands above the block, or at the start of its top row
  have hspared : s.text.Spares l.anchor := by
    have hanchor := h.block.anchor_le hmem
    have hclear := hsettled.clear
    unfold Position.Spares
    split at hclear <;> omega
  rw [hlength, ← h.block.anchor_eq hl, ← hdrawn l hmem]
  exact (h.block.lines l hmem).shows (hsettled.anchored l hmem) hspared

theorem Sound.flush_of_visible (h : s.Sound g t) (hv : s.block.visible = true) :
    s.flush.Ensures fun u => u.terminal.ShowsContents t.contents := by
  refine (redrawBlock_ensures_of_visible h.toAccurate hv).andThen fun a ha => ?_
  obtain ⟨g', hacc, hsettled, -, -, hdrawn, -, hcursor⟩ := ha
  refine (flushDevice_ensures hacc).mono fun u hu => ?_
  obtain ⟨hflushed, htext, hblock, hsame⟩ := hu
  refine hflushed.showsContents ?_ ?_ (hsame.trans hcursor)
  · obtain ⟨⟨hclear, hanchored⟩, hvisible⟩ := hsettled
    rw [← hblock] at hvisible hclear hanchored
    rw [← htext] at hclear
    exact ⟨⟨hclear, hanchored⟩, hvisible⟩
  · rw [hblock]
    exact hdrawn

/-- After any run, a flush with the block visible leaves on the terminal the contents that the lines
were given last, however many redraws are left out. -/
theorem flush_showsContents {device : Device} (hfresh : device.output = []) (palette : Palette)
    (workers : Nat) (actions : List PageAction) (hmeasured : ∀ a ∈ actions, a.Measured)
    (hfits : (Transcript.ofActions workers actions).Fits)
    (hvisible : ((start device palette workers).run actions).state.block.visible = true)
    (hok : ((start device palette workers).run (actions ++ [.flush])).failure = none) :
    ((start device palette workers).run (actions ++ [.flush])).state.terminal.ShowsContents
      (Transcript.ofActions workers actions).contents := by
  rw [run_concat] at hok ⊢
  obtain ⟨hfirst, hflush⟩ := Attempt.andThen_failure_none_iff.mp hok
  obtain ⟨g, hsound⟩ := (sound_start hfresh palette workers).run hmeasured hfits hfirst
  rw [Attempt.andThen_of_none hfirst]
  exact hsound.flush_of_visible hvisible hflush

theorem flush_showsContents_of_hidden_and_shown :
    ((start {} .blank 1).run [.setLine 0 (.plain "BUILD"), .flush, .setVisible false,
      .output (.line "one"), .setVisible true, .setLine 1 (.plain "job"), .flush]
      ).state.terminal.ShowsContents [.plain "BUILD", .plain "job", []] :=
  flush_showsContents rfl .blank 1 [.setLine 0 (.plain "BUILD"), .flush, .setVisible false,
    .output (.line "one"), .setVisible true, .setLine 1 (.plain "job")] (by decide)
    (by decide) (by decide) (by decide)

/-- Characters of width one are not enough. The two letters of this content are counted as one sign,
and the terminal's cursor ends one column to the right of where it is taken to be. -/
theorem not_flush_showsContents_of_singleWidth :
    ¬∀ (device : Device) (palette : Palette) (workers : Nat) (actions : List PageAction),
      device.output = [] → (∀ a ∈ actions, a.SingleWidth) →
      (Transcript.ofActions workers actions).Fits →
      ((start device palette workers).run actions).state.block.visible = true →
      ((start device palette workers).run (actions ++ [.flush])).failure = none →
      ((start device palette workers).run (actions ++ [.flush])).state.terminal.ShowsContents
        (Transcript.ofActions workers actions).contents := by
  intro h
  have hshown := h {} .blank 0 [.setLine 0 (.plain "لا")] rfl (by decide +kernel)
    (by decide +kernel) (by decide +kernel) (by decide +kernel)
  have hcursor := hshown.cursor
  revert hcursor
  decide +kernel

end Page

end ProgressDisplay
