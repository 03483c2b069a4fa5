import ProgressDisplay.Proofs.Regions.Delivery

/-!
# Closing a page on a failing device

A close erases the lines that have drawn something, takes the cursor to where the block stood, and
flushes the device. None of that completes a line, so of the devices that refuse writes only one
that refuses all of them can stand in the way, and only if there is something to write.

* `Device.exists_write_iff`: when a device takes what completes no line.
* `AnchoredLine.failure_redrawAll_of_hidden`: when hidden lines can be erased.
* `Page.failure_close_eq_none_iff`: when a page can be closed.
-/

namespace ProgressDisplay

open Attempt

namespace Position

variable {start target : Position}

theorem motions_eq_nil_iff : start.motions target = [] ↔ start = target := by
  constructor
  · intro h
    obtain ⟨row, col⟩ := start
    obtain ⟨row', col'⟩ := target
    unfold motions at h
    simp only at h
    split at h
    · split at h
      · cases h
      · split at h
        · cases h
        · simp only [mk.injEq]
          omega
    · split at h <;> split at h <;> split at h <;> cases h
  · rintro rfl
    exact motions_self start

theorem completesLine_motions (start target : Position) :
    ∀ e ∈ start.motions target, e.completesLine = false := by
  unfold motions
  repeat' split
  all_goals simp [Emission.completesLine]

end Position

/-! ## What a failing device takes -/

namespace Device

variable {d d' : Device} {emissions : List Emission} {kind : Emission → Prop}

/-- Every write is refused that holds anything. -/
def Shut (d : Device) : Prop := ∃ reason, d.writeFault = .always reason

theorem exists_write_iff (h : ∀ e ∈ emissions, e.completesLine = false) :
    (∃ d', d.write emissions = .ok d') ↔ (d.Shut → emissions = []) := by
  have hrefusal : d.refusal emissions = none ↔ (d.Shut → emissions = []) := by
    have hany : emissions.any Emission.completesLine = false := List.any_eq_false.mpr fun e he => by
      simp [h e he]
    unfold refusal Shut
    cases d.writeFault with
    | none => simp
    | always reason => simp
    | completedLines reason => simp [hany]
  rw [← hrefusal]
  unfold write
  cases d.refusal emissions with
  | none => simp
  | some failure => simp

theorem Grew.shut_iff (h : d.Grew kind d') : d'.Shut ↔ d.Shut := by
  rw [Shut, Shut, h.writeFault]

end Device

theorem Attempt.ofExcept_failure_none_iff {ε σ τ : Type} {before : σ} {result : Except ε τ}
    {after : τ → σ} :
    (Attempt.ofExcept before result after).failure = none ↔ ∃ value, result = .ok value := by
  cases result with
  | ok value => simp [ofExcept]
  | error failure => simp [ofExcept]

namespace Writer

variable {w : Writer} {place : Position}

theorem exists_commit_iff {p : Pen} :
    (∃ r, w.commit p = .ok r) ↔ ∃ device, w.device.write p.emitted = .ok device := by
  constructor
  · rintro ⟨r, hr⟩
    obtain ⟨device, hwrite, -⟩ := commit_eq_ok_iff.mp hr
    exact ⟨device, hwrite⟩
  · rintro ⟨device, hwrite⟩
    exact ⟨_, commit_eq_ok_iff.mpr ⟨device, hwrite, rfl⟩⟩

/-- An erasure is never nothing. -/
theorem exists_erase_iff : (∃ r, w.drawAt place Pen.eraseRest = .ok r) ↔ ¬w.device.Shut := by
  have hemitted : (Pen.eraseRest (w.penAt place)).emitted =
      w.cursor.motions place ++ [.eraseRest] := rfl
  have hsilent : ∀ e ∈ w.cursor.motions place ++ [.eraseRest], e.completesLine = false :=
    List.forall_mem_append.mpr
      ⟨Position.completesLine_motions _ _, List.forall_mem_singleton.mpr rfl⟩
  rw [drawAt, exists_commit_iff, hemitted, Device.exists_write_iff hsilent]
  simp

theorem exists_moveTo_iff :
    (∃ w', w.moveTo place = .ok w') ↔ (w.device.Shut → w.cursor = place) := by
  rw [← Position.motions_eq_nil_iff,
    ← Device.exists_write_iff (Position.completesLine_motions w.cursor place), moveTo]
  cases w.device.write (w.cursor.motions place) with
  | ok device => simp [Except.map]
  | error failure => simp [Except.map]

theorem exists_flush_iff : (∃ w', w.flush = .ok w') ↔ w.device.flushFault = none := by
  unfold flush Device.flush
  cases w.device.flushFault with
  | none => simp [Except.map]
  | some reason => simp [Except.map]

end Writer

/-! ## Hidden lines -/

namespace AnchoredLine

variable {l : AnchoredLine} {lines : List AnchoredLine} {w : Writer}

theorem redraw_of_clean (hhidden : l.visible = false) (hclean : l.dirty = false) :
    l.redraw w = .done (l, w) :=
  redraw_of_fresh (by simp [stale, hhidden, hclean])

theorem redrawAll_of_clean (hhidden : ∀ l ∈ lines, l.visible = false)
    (hclean : ∀ l ∈ lines, l.dirty = false) : redrawAll lines w = .done (lines, w) :=
  redrawAll_of_fresh fun l hl => by simp [stale, hhidden l hl, hclean l hl]

theorem failure_redraw_of_hidden (hhidden : l.visible = false) :
    (l.redraw w).failure = none ↔ (w.device.Shut → l.dirty = false) := by
  cases hdirty : l.dirty with
  | false =>
    rw [redraw_of_clean hhidden hdirty]
    simp [done]
  | true =>
    have hcleared : l.redraw w = l.clear w := by simp [redraw, hhidden, hdirty]
    rw [hcleared, clear, ofExcept_failure_none_iff, Writer.exists_erase_iff]
    simp

theorem grew_redraw (l : AnchoredLine) (w : Writer) :
    w.device.Grew (Emission.Over fun _ => True) (l.redraw w).state.2.device :=
  (delivers_redraw w fun _ _ => trivial).grew

theorem failure_redrawAll_of_hidden (hhidden : ∀ l ∈ lines, l.visible = false) :
    (redrawAll lines w).failure = none ↔ (w.device.Shut → ∀ l ∈ lines, l.dirty = false) := by
  induction lines generalizing w with
  | nil => simp [redrawAll, done]
  | cons l rest ih =>
    obtain ⟨hl, hrest⟩ := List.forall_mem_cons.mp hhidden
    rw [failure_redrawAll_cons, failure_redraw_of_hidden hl, ih hrest, (grew_redraw l w).shut_iff,
      ← imp_and]
    simp only [List.forall_mem_cons]

end AnchoredLine

/-! ## Pages -/

namespace Page

variable {s : Page}

/-- The device takes all that a close has for it: it can be flushed, and it takes writes, or no line
has drawn anything and the cursor is where it is to be left. -/
structure Withdrawable (s : Page) : Prop where
  flushes : s.writer.device.flushFault = none
  writes : s.writer.device.Shut →
    (∀ l ∈ s.block.lines, l.dirty = false) ∧ s.writer.cursor = s.block.position

theorem failure_redrawLines_of_hidden (hhidden : ∀ l ∈ s.block.lines, l.visible = false) :
    s.redrawLines.failure = none ↔
      (s.writer.device.Shut → ∀ l ∈ s.block.lines, l.dirty = false) :=
  AnchoredLine.failure_redrawAll_of_hidden hhidden

theorem failure_restCursor :
    s.restCursor.failure = none ↔ (s.writer.device.Shut → s.writer.cursor = s.block.restingPlace) :=
  ofExcept_failure_none_iff.trans Writer.exists_moveTo_iff

theorem failure_flushDevice : s.flushDevice.failure = none ↔ s.writer.device.flushFault = none :=
  ofExcept_failure_none_iff.trans Writer.exists_flush_iff

/-- Where nothing can be erased and nothing has to be, lines that are redrawn do not move the
cursor. -/
theorem redrawLines_of_clean (hhidden : ∀ l ∈ s.block.lines, l.visible = false)
    (hclean : ∀ l ∈ s.block.lines, l.dirty = false) : s.redrawLines = .done s := by
  rw [redrawLines, AnchoredLine.redrawAll_of_clean hhidden hclean]
  rfl

theorem close_eq (s : Page) :
    s.close = ((s.setVisible false).redrawLines.andThen restCursor).andThen flushDevice := rfl

/-- Whether a close completes is settled before it begins. -/
theorem failure_close_eq_none_iff : s.close.failure = none ↔ s.Withdrawable := by
  have hhidden : ∀ l ∈ (s.setVisible false).block.lines, l.visible = false := by
    intro l hl
    obtain ⟨before, -, rfl⟩ := List.mem_map.mp hl
    rfl
  have hclean : (∀ l ∈ (s.setVisible false).block.lines, l.dirty = false) ↔
      ∀ l ∈ s.block.lines, l.dirty = false := List.forall_mem_map
  have hdelivers := delivers_redrawLines (s.setVisible false).legible_any
  have hredrawn := hdelivers.grew
  have hrested := (hdelivers.andThen (delivers_restCursor _)).grew
  -- A device that takes no writes leaves the cursor alone, as there is nothing to erase by then.
  have hcursor (h : ∀ l ∈ s.block.lines, l.dirty = false) :
      (s.setVisible false).redrawLines.state.writer.cursor =
          (s.setVisible false).redrawLines.state.block.restingPlace ↔
        s.writer.cursor = s.block.position := by
    rw [redrawLines_of_clean hhidden (hclean.mpr h)]
    exact Iff.rfl
  rw [close_eq, andThen_failure_none_iff, andThen_failure_none_iff,
    failure_redrawLines_of_hidden hhidden, failure_restCursor, failure_flushDevice, hclean]
  constructor
  · rintro ⟨⟨herased, hrests⟩, hflushes⟩
    refine ⟨hrested.flushFault.symm.trans hflushes, fun hshut => ?_⟩
    exact ⟨herased hshut, (hcursor (herased hshut)).mp (hrests (hredrawn.shut_iff.mpr hshut))⟩
  · rintro ⟨hflushes, hwrites⟩
    refine ⟨⟨fun hshut => (hwrites hshut).1, fun hshut => ?_⟩, hrested.flushFault.trans hflushes⟩
    obtain ⟨herased, hplace⟩ := hwrites (hredrawn.shut_iff.mp hshut)
    exact (hcursor herased).mpr hplace

end Page

end ProgressDisplay
