import ProgressDisplay.Proofs.Regions.Bookkeeping
import ProgressDisplay.Proofs.Regions.Withdrawal
import ProgressDisplay.Proofs.Screen.CursorKnown

/-!
# Redraws that are made again

A redraw that completed leaves nothing to be redrawn, so the next one writes nothing. A redraw that
failed should be made up for by the next one, but a line takes note of its own row before it has
written anything. If it was to be redrawn only because it had been scrolled off its row, the failure
makes it forget that it was.

* `AnchoredLine.retry_eq_iff`: which failed redraws of a line the next one makes up for.
* `Page.flush_flush`: a flush after a flush writes nothing and changes nothing.
-/

namespace ProgressDisplay

open Attempt

/-! ## After a failure -/

namespace AnchoredLine

variable {l : AnchoredLine} {w : Writer}

/-- The redraw after a redraw, on a device that has come to take all writes. -/
def retry (l : AnchoredLine) (w : Writer) : Attempt DeviceFailure (AnchoredLine × Writer) :=
  let first := l.redraw w
  first.state.1.redraw (first.state.2.withFault .none)

theorem redraw_of_stale (h : l.stale = true) :
    l.redraw w = if l.visible = true then l.draw w else l.clear w := by
  unfold stale at h
  unfold redraw
  split
  · rename_i hv
    have hu : ¬l.upToDate = true := by simpa [hv] using h
    rw [if_neg hu]
  · rename_i hv
    have hdirty : l.dirty = true := by simpa [hv] using h
    rw [if_pos hdirty]

theorem state_ofExcept_of_failure {ε σ τ : Type} {before : σ} {result : Except ε τ} {after : τ → σ}
    (h : (ofExcept before result after).failure ≠ none) :
    (ofExcept before result after).state = before := by
  cases result with
  | ok value => exact absurd rfl h
  | error failure => rfl

/-- A redraw that fails has written nothing, but the line takes itself to be on its row. -/
theorem state_of_failure (h : (l.redraw w).failure ≠ none) :
    l.stale = true ∧ (l.redraw w).state = (l.atAnchor, w) := by
  cases hstale : l.stale with
  | false =>
    rw [redraw_of_fresh hstale] at h
    exact absurd rfl h
  | true =>
    rw [redraw_of_stale hstale] at h ⊢
    refine ⟨rfl, ?_⟩
    split at h
    · rename_i hv
      rw [if_pos hv]
      exact state_ofExcept_of_failure h
    · rename_i hv
      rw [if_neg hv]
      exact state_ofExcept_of_failure h

/-- The line has nothing new to show: if it has to be redrawn, it was scrolled off its row. -/
def Unchanged (l : AnchoredLine) : Prop := l.visible = true ∧ l.drawn = l.content

instance (l : AnchoredLine) : Decidable l.Unchanged := inferInstanceAs (Decidable (_ ∧ _))

theorem stale_atAnchor_iff (h : l.stale = true) : l.atAnchor.stale = true ↔ ¬l.Unchanged := by
  unfold stale at h ⊢
  cases hv : l.visible with
  | true => simp [atAnchor, upToDate, Unchanged, hv]
  | false =>
    have hdirty : l.dirty = true := by simpa [hv] using h
    simp [atAnchor, Unchanged, hv, hdirty]

/-- Where the line stood does not matter to what it draws. -/
theorem redraw_atAnchor (h : l.stale = true) (h' : l.atAnchor.stale = true) :
    l.atAnchor.redraw w = l.redraw w := by
  rw [redraw_of_stale h, redraw_of_stale h']
  rfl

theorem output_draw (h : w.device.writeFault = .none) :
    ∃ written, written ≠ [] ∧
      (l.draw w).state.2.device.output = w.device.output ++ written := by
  refine ⟨((w.penAt l.atAnchor.position).line l.content).eraseRest.emitted,
    List.append_ne_nil_of_right_ne_nil _ (List.cons_ne_nil Emission.eraseRest []), ?_⟩
  rw [draw, Writer.drawAt_of_none h]
  rfl

/-- The redraw after a failed one does what that one would have done, unless the line had nothing
new to show. It then takes itself to be on its row and writes nothing. -/
theorem retry_eq_iff (hfailed : (l.redraw w).failure ≠ none) :
    (l.retry w = l.redraw (w.withFault .none) ↔ ¬l.Unchanged) ∧
      (l.Unchanged → l.retry w = .done (l.atAnchor, w.withFault .none)) := by
  obtain ⟨hstale, hstate⟩ := state_of_failure hfailed
  have hretry : l.retry w = l.atAnchor.redraw (w.withFault .none) := by
    rw [retry, hstate]
  have hforgotten (hunchanged : l.Unchanged) :
      l.retry w = .done (l.atAnchor, w.withFault .none) := by
    rw [hretry]
    refine redraw_of_fresh (Bool.eq_false_iff.mpr fun hagain => ?_)
    exact (stale_atAnchor_iff hstale).mp hagain hunchanged
  refine ⟨⟨fun hsame hunchanged => ?_, fun hchanged => ?_⟩, hforgotten⟩
  · -- the redraw that was due writes something
    rw [hforgotten hunchanged, redraw_of_stale hstale, if_pos hunchanged.1] at hsame
    obtain ⟨written, hsome, hwritten⟩ := output_draw (l := l) (w := w.withFault .none) rfl
    rw [← hsame] at hwritten
    exact hsome (List.self_eq_append_right.mp hwritten)
  · rw [hretry]
    exact redraw_atAnchor hstale ((stale_atAnchor_iff hstale).mpr hchanged)

/-- A drawn line that was scrolled off its row. -/
def scrolledOff : AnchoredLine where
  anchor := 2
  position := { row := 3, col := 5 }
  content := .plain "BUILD"
  drawn := .plain "BUILD"
  dirty := true

/-- A device that takes nothing. -/
def shutWriter : Writer := { palette := .blank, device := { writeFault := .always "closed" } }

/-- The line has got another content after it was scrolled off its row. -/
theorem retry_eq_iff_of_changed :
    let l := scrolledOff.setContent (.plain "DONE")
    (l.redraw shutWriter).failure ≠ none ∧ ¬l.Unchanged ∧
      l.retry shutWriter = l.redraw (shutWriter.withFault .none) := by
  intro l
  have hfailed : (l.redraw shutWriter).failure ≠ none := by decide +kernel
  have hchanged : ¬l.Unchanged := by decide
  exact ⟨hfailed, hchanged, (retry_eq_iff hfailed).1.mpr hchanged⟩

/-- A line that was scrolled off its row is not drawn there by the redraw after a failed one. -/
theorem not_retry_eq :
    ¬∀ (l : AnchoredLine) (w : Writer), (l.redraw w).failure ≠ none →
      l.retry w = l.redraw (w.withFault .none) := by
  intro h
  have hfailed : (scrolledOff.redraw shutWriter).failure ≠ none := by decide +kernel
  have hsame := congrArg (fun a => a.state.2.device.output) (h scrolledOff shutWriter hfailed)
  revert hsame
  decide +kernel

end AnchoredLine

/-! ## After a success -/

theorem Device.write_nil (d : Device) : d.write [] = .ok d := by
  have hrefusal : d.refusal [] = none := by
    unfold refusal
    cases d.writeFault <;> rfl
  rw [write, hrefusal, List.append_nil]

theorem Writer.moveTo_self {w : Writer} {place : Position} (h : w.cursor = place) :
    w.moveTo place = .ok w := by
  subst h
  rw [moveTo, Position.motions_self, Device.write_nil]
  rfl

namespace Page

variable {s : Page}

/-- The page after its device was flushed once more. -/
def flushed (s : Page) : Page :=
  { s with
    writer := { s.writer with
      device := { s.writer.device with flushes := s.writer.device.flushes + 1 } } }

theorem flushDevice_of_none (h : s.writer.device.flushFault = none) :
    s.flushDevice = .done s.flushed := by
  rw [flushDevice, Writer.flush, Device.flush_of_none h]
  rfl

theorem AtRest.anchorBlock (h : s.AtRest) : s.anchorBlock = .done s := by
  unfold Page.anchorBlock
  split
  · rename_i hv
    have hblock : s.block.atBottom = s.block := by
      rw [StatusBlock.atBottom, ← h.bottom hv]
    rw [clearBlock_of_clear h.clear, done_andThen, hblock]
  · rfl

theorem AtRest.redrawBlock (h : s.AtRest) : s.redrawBlock = .done s := by
  have hlines : s.redrawLines = .done s := by
    rw [redrawLines, AnchoredLine.redrawAll_of_fresh h.fresh]
    rfl
  rw [Page.redrawBlock, h.anchorBlock, done_andThen, hlines, done_andThen, restCursor,
    Writer.moveTo_self h.cursor]
  rfl

theorem AtRest.flushed (h : s.AtRest) : s.flushed.AtRest := ⟨h.clear, h.bottom, h.fresh, h.cursor⟩

/-- A flush leaves nothing to be redrawn, whatever the page was like, so that a flush after it only
asks the device to be flushed once more. -/
theorem flush_flush (s : Page) (hlow : s.block.height ≤ Position.limit)
    (hok : s.flush.failure = none) :
    s.flush.state.AtRest ∧ s.flush.state.flush = .done s.flush.state.flushed := by
  obtain ⟨hredrawn, hflushed⟩ := andThen_failure_none_iff.mp hok
  have hrest : s.redrawBlock.state.AtRest := (redrawBlock_rests hlow hredrawn).rests
  have hdevice := failure_flushDevice.mp hflushed
  have hstate : s.flush.state = s.redrawBlock.state.flushed := by
    rw [flush, andThen_of_none hredrawn, flushDevice_of_none hdevice]
    rfl
  rw [hstate]
  refine ⟨hrest.flushed, ?_⟩
  rw [flush, hrest.flushed.redrawBlock, done_andThen]
  exact flushDevice_of_none hdevice

/-- Lines drawn, scrolled and hidden one by one, text in the way, and a cursor left anywhere. -/
theorem flush_flush_of_disarray :
    let drawn : Page :=
      { writer := { palette := .blank, cursor := ⟨7, 3⟩ }
        block :=
          { lines := [AnchoredLine.scrolledOff,
              { AnchoredLine.scrolledOff with anchor := 1, visible := false }, .onRow 0]
            position := ⟨9, 4⟩ }
        text := ⟨1, 6⟩ }
    drawn.flush.failure = none ∧ drawn.flush.state.writer.device.output.length = 12 ∧
      drawn.flush.state.AtRest ∧ drawn.flush.state.flush = .done drawn.flush.state.flushed := by
  intro drawn
  have hok : drawn.flush.failure = none := by decide +kernel
  exact ⟨hok, by decide +kernel, flush_flush drawn (by decide) hok⟩

end Page

end ProgressDisplay
