import ProgressDisplay.Proofs.Completion
import ProgressDisplay.Proofs.Screen.ControlSequence
import ProgressDisplay.Proofs.Screen.Measured
import ProgressDisplay.Screen.Writer

/-!
# What reaches the device

A device is only ever added to. `Device.Grew` says what kind of emissions were added, and
`Attempt.Delivers` says it of an attempt that may fail half way, together with the one reason for it
to fail: a device that refuses.

* `Pen.Emits.line`, `Pen.Emits.tabbed`: a pen emits the characters that it is given, and blanks.
* `Delivers.andThen`, `Delivers.drawAt`: what a sequence delivers, and what a drawing does.
-/

namespace ProgressDisplay

variable {allowed : Char → Prop} {kind : Emission → Prop}

namespace Emission

/-- All text of the emission consists of the characters that are allowed. -/
def Over (allowed : Char → Prop) : Emission → Prop
  | text content => ∀ c ∈ content.toList, allowed c
  | _ => True

theorem Switches.over {e : Emission} (h : e.Switches) : e.Over allowed := by
  cases e with
  | bold | italic | reverse | foreground _ | reset => trivial
  | _ => exact h.elim

end Emission

theorem Position.over_motions (start target : Position) :
    ∀ e ∈ start.motions target, e.Over allowed := by
  intro e he
  cases e with
  | text content => exact absurd he (text_notMem_motions start target content)
  | _ => trivial

/-! ## Devices -/

namespace Device

variable {d d' d'' : Device}

/-- The device took emissions of one kind only, and it refuses what it refused before. -/
structure Grew (kind : Emission → Prop) (d d' : Device) : Prop where
  output : ∃ written, (∀ e ∈ written, kind e) ∧ d'.output = d.output ++ written
  writeFault : d'.writeFault = d.writeFault
  flushFault : d'.flushFault = d.flushFault

/-- Nothing is refused. -/
structure Reliable (d : Device) : Prop where
  writes : d.writeFault = .none
  flushes : d.flushFault = none

theorem Grew.refl (d : Device) : d.Grew kind d where
  output := ⟨[], by simp, by simp⟩
  writeFault := rfl
  flushFault := rfl

theorem Grew.trans (h : d.Grew kind d') (h' : d'.Grew kind d'') : d.Grew kind d'' where
  output := by
    obtain ⟨first, hfirst, houtput⟩ := h.output
    obtain ⟨second, hsecond, houtput'⟩ := h'.output
    refine ⟨first ++ second, List.forall_mem_append.mpr ⟨hfirst, hsecond⟩, ?_⟩
    rw [houtput', houtput, List.append_assoc]
  writeFault := h'.writeFault.trans h.writeFault
  flushFault := h'.flushFault.trans h.flushFault

theorem Grew.mem {e : Emission} (h : d.Grew kind d') (he : e ∈ d.output) : e ∈ d'.output := by
  obtain ⟨written, -, houtput⟩ := h.output
  rw [houtput]
  exact List.mem_append_left written he

/-- What is new is of the kind, so all of the output is if all of it was. -/
theorem Grew.forall_mem (h : d.Grew kind d') (hbefore : ∀ e ∈ d.output, kind e) :
    ∀ e ∈ d'.output, kind e := by
  obtain ⟨written, hwritten, houtput⟩ := h.output
  rw [houtput]
  exact List.forall_mem_append.mpr ⟨hbefore, hwritten⟩

theorem Grew.reliable (h : d.Grew kind d') (hreliable : d.Reliable) : d'.Reliable where
  writes := h.writeFault.trans hreliable.writes
  flushes := h.flushFault.trans hreliable.flushes

theorem grew_write {emissions : List Emission} (hkind : ∀ e ∈ emissions, kind e)
    (hok : d.write emissions = .ok d') : d.Grew kind d' := by
  obtain ⟨-, rfl⟩ := write_eq_ok_iff.mp hok
  exact ⟨⟨emissions, hkind, rfl⟩, rfl, rfl⟩

theorem write_of_none (h : d.writeFault = .none) (emissions : List Emission) :
    d.write emissions = .ok { d with output := d.output ++ emissions } := by
  simp [write, refusal, h]

theorem eq_of_flush (hok : d.flush = .ok d') : d' = { d with flushes := d.flushes + 1 } := by
  unfold flush at hok
  split at hok
  · cases hok
  · exact (Except.ok.inj hok).symm

theorem grew_flush (hok : d.flush = .ok d') : d.Grew kind d' := by
  obtain rfl := eq_of_flush hok
  exact ⟨(Grew.refl d).output, rfl, rfl⟩

theorem flush_of_none (h : d.flushFault = none) :
    d.flush = .ok { d with flushes := d.flushes + 1 } := by
  rw [flush, h]

end Device

/-! ## Writers -/

namespace Writer

variable {w : Writer}

/-- The writer that has delivered what a pen emitted. -/
def deliver (w : Writer) (p : Pen) : Writer :=
  { w with
    device := { w.device with output := w.device.output ++ p.emitted }
    cursor := p.cursor }

theorem drawAt_of_none (h : w.device.writeFault = .none) (place : Position) (draw : Pen → Pen) :
    w.drawAt place draw = .ok
      { writer := w.deliver (draw (w.penAt place))
        stop := (draw (w.penAt place)).cursor
        scrolled := (draw (w.penAt place)).scrolled } := by
  rw [drawAt, commit, Device.write_of_none h]
  rfl

theorem moveTo_of_none (h : w.device.writeFault = .none) (place : Position) :
    w.moveTo place = .ok (w.deliver (w.penAt place)) := by
  rw [moveTo, Device.write_of_none h]
  rfl

end Writer

/-! ## Pens -/

namespace Pen

variable {p : Pen}

/-- All text that the pen has emitted consists of the characters that are allowed. -/
def Emits (allowed : Char → Prop) (p : Pen) : Prop := ∀ e ∈ p.emitted, e.Over allowed

theorem emitted_text (p : Pen) (content : String) :
    (p.text content).emitted = p.emitted ++ if content = "" then [] else [.text content] := by
  unfold text
  split
  · rw [List.append_nil]
  · rfl

theorem emits_penAt (w : Writer) (place : Position) : (w.penAt place).Emits allowed :=
  Position.over_motions w.cursor place

namespace Emits

theorem emit {emissions : List Emission} (h : p.Emits allowed)
    (hemissions : ∀ e ∈ emissions, e.Over allowed) : (p.emit emissions).Emits allowed :=
  List.forall_mem_append.mpr ⟨h, hemissions⟩

theorem text {content : String} (h : p.Emits allowed)
    (hcontent : ∀ c ∈ content.toList, allowed c) : (p.text content).Emits allowed := by
  unfold Pen.text
  split
  · exact h
  · exact h.emit (List.forall_mem_singleton.mpr hcontent)

theorem eraseRest (h : p.Emits allowed) : p.eraseRest.Emits allowed :=
  h.emit (List.forall_mem_singleton.mpr trivial)

theorem eraseRestIf (h : p.Emits allowed) (erase : Bool) : (p.eraseRestIf erase).Emits allowed := by
  cases erase with
  | true => exact h.eraseRest
  | false => exact h

theorem breakLine (h : p.Emits allowed) : p.breakLine.Emits allowed := by
  unfold Pen.breakLine
  split
  all_goals exact h.emit (List.forall_mem_singleton.mpr trivial)

theorem breakLines (rows : Nat) (h : p.Emits allowed) : (Pen.breakLines rows p).Emits allowed := by
  induction rows generalizing p with
  | zero => exact h
  | succ rows ih => exact ih h.breakLine

theorem styled {body : Pen → Pen} (style : Style) (h : p.Emits allowed)
    (hbody : ∀ q : Pen, q.Emits allowed → (body q).Emits allowed) :
    (p.styled style body).Emits allowed :=
  (hbody _ (h.emit fun e he => (Rendition.switches_on _ e he).over)).emit
    fun e he => (Rendition.switches_off _ e he).over

theorem line {line : Line} (h : p.Emits allowed) (hline : line.Over allowed) :
    (p.line line).Emits allowed := by
  induction line generalizing p with
  | nil => exact h
  | cons s rest ih =>
    obtain ⟨hs, hrest⟩ := Line.over_cons.mp hline
    exact ih (h.styled s.style fun q hq => hq.text hs) hrest

theorem tab (hblank : allowed ' ') (h : p.Emits allowed) : p.tab.Emits allowed := by
  refine h.text fun c hc => ?_
  rw [String.toList_ofList] at hc
  rw [List.eq_of_mem_replicate hc]
  exact hblank

theorem tabbed (hblank : allowed ' ') {pieces : List (List Char)} (h : p.Emits allowed)
    (hpieces : ∀ piece ∈ pieces, ∀ c ∈ piece, allowed c) : (p.tabbed pieces).Emits allowed := by
  induction pieces generalizing p with
  | nil => exact h
  | cons piece rest ih =>
    have hpiece : (p.text (String.ofList piece)).Emits allowed := by
      refine h.text fun c hc => hpieces piece List.mem_cons_self c ?_
      rwa [String.toList_ofList] at hc
    cases rest with
    | nil => exact hpiece
    | cons next others =>
      exact ih (hpiece.tab hblank) fun d hd => hpieces d (List.mem_cons_of_mem piece hd)

end Emits

/-! What a pen has emitted stays emitted. -/

variable {e : Emission}

theorem mem_emitted_text (h : e ∈ p.emitted) (content : String) : e ∈ (p.text content).emitted := by
  rw [emitted_text]
  exact List.mem_append_left _ h

theorem text_mem_emitted (p : Pen) {content : String} (hne : content ≠ "") :
    .text content ∈ (p.text content).emitted := by
  rw [emitted_text, if_neg hne]
  exact List.mem_append_right _ List.mem_cons_self

theorem mem_emitted_tabbed (h : e ∈ p.emitted) (pieces : List (List Char)) :
    e ∈ (p.tabbed pieces).emitted := by
  induction pieces generalizing p with
  | nil => exact h
  | cons piece rest ih =>
    cases rest with
    | nil => exact mem_emitted_text h _
    | cons next others => exact ih (mem_emitted_text (mem_emitted_text h _) _)

theorem piece_mem_emitted (p : Pen) {piece : List Char} {pieces : List (List Char)}
    (h : piece ∈ pieces) (hne : piece ≠ []) :
    .text (String.ofList piece) ∈ (p.tabbed pieces).emitted := by
  have htext (q : Pen) : .text (String.ofList piece) ∈ (q.text (String.ofList piece)).emitted :=
    text_mem_emitted q fun hempty => hne (String.ofList_eq_empty_iff.mp hempty)
  induction pieces generalizing p with
  | nil => cases h
  | cons first rest ih =>
    cases rest with
    | nil =>
      obtain rfl := List.mem_singleton.mp h
      exact htext p
    | cons next others =>
      rcases List.mem_cons.mp h with rfl | h
      · exact mem_emitted_tabbed (mem_emitted_text (htext p) _) _
      · exact ih _ h

theorem mem_emitted_line (h : e ∈ p.emitted) (line : Line) : e ∈ (p.line line).emitted := by
  induction line generalizing p with
  | nil => exact h
  | cons s rest ih =>
    exact ih (List.mem_append_left _ (mem_emitted_text (List.mem_append_left _ h) _))

theorem span_mem_emitted (p : Pen) {s : Span} {line : Line} (h : s ∈ line) (hne : s.text ≠ "") :
    .text s.text ∈ (p.line line).emitted := by
  induction line generalizing p with
  | nil => cases h
  | cons first rest ih =>
    rcases List.mem_cons.mp h with rfl | h
    · exact mem_emitted_line (List.mem_append_left _ (text_mem_emitted _ hne)) rest
    · exact ih _ h

end Pen

/-! ## Attempts -/

namespace Attempt

variable {σ τ : Type} {dev : σ → Device} {before : Device} {a : Attempt DeviceFailure σ}

/-- Starting from a device, an attempt has added emissions of one kind, wherever it stopped, and it
has not stopped early unless the device refuses something. -/
structure Delivers (kind : Emission → Prop) (dev : σ → Device) (before : Device)
    (a : Attempt DeviceFailure σ) : Prop where
  grew : before.Grew kind (dev a.state)
  completes : before.Reliable → a.failure = none

namespace Delivers

theorem done {state : σ} (h : before.Grew kind (dev state)) :
    (Attempt.done state).Delivers kind dev before where
  grew := h
  completes _ := rfl

theorem andThen {next : σ → Attempt DeviceFailure σ} (ha : a.Delivers kind dev before)
    (hnext : (next a.state).Delivers kind dev (dev a.state)) :
    (a.andThen next).Delivers kind dev before where
  grew := by
    unfold Attempt.andThen
    split
    · exact ha.grew.trans hnext.grew
    · exact ha.grew
  completes := by
    intro hreliable
    have hfirst := ha.completes hreliable
    rw [andThen_of_none hfirst]
    exact hnext.completes (ha.grew.reliable hreliable)

theorem map {f : τ → σ} {a : Attempt DeviceFailure τ}
    (ha : a.Delivers kind (fun s => dev (f s)) before) : (a.map f).Delivers kind dev before :=
  ⟨ha.grew, ha.completes⟩

theorem ofExcept {state : σ} {result : Except DeviceFailure τ} {after : τ → σ}
    (hgrew : ∀ value, result = .ok value → (dev state).Grew kind (dev (after value)))
    (hcompletes : (dev state).Reliable → ∃ value, result = .ok value) :
    (Attempt.ofExcept state result after).Delivers kind dev (dev state) where
  grew := by
    cases result with
    | ok value => exact hgrew value rfl
    | error failure => exact Device.Grew.refl _
  completes := by
    intro hreliable
    obtain ⟨value, rfl⟩ := hcompletes hreliable
    rfl

/-- A drawing delivers what its pen emits. -/
theorem drawAt {w : Writer} {place : Position} {draw : Pen → Pen} {state : σ} {after : Drawn → σ}
    (hemitted : ∀ e ∈ (draw (w.penAt place)).emitted, kind e) (hstate : dev state = w.device)
    (hafter : ∀ r, dev (after r) = r.writer.device) :
    (Attempt.ofExcept state (w.drawAt place draw) after).Delivers kind dev w.device := by
  rw [← hstate]
  refine ofExcept (fun r hr => ?_) fun hreliable => ?_
  · obtain ⟨device, hwrite, rfl⟩ := Writer.commit_eq_ok_iff.mp hr
    rw [hafter, hstate]
    exact Device.grew_write hemitted hwrite
  · rw [hstate] at hreliable
    exact ⟨_, Writer.drawAt_of_none hreliable.writes place draw⟩

/-- A motion of the cursor delivers no text. -/
theorem moveTo {w : Writer} {target : Position} {state : σ} {after : Writer → σ}
    (hstate : dev state = w.device) (hafter : ∀ w', dev (after w') = w'.device) :
    (Attempt.ofExcept state (w.moveTo target) after).Delivers (Emission.Over allowed) dev
      w.device := by
  rw [← hstate]
  refine ofExcept (fun w' hok => ?_) fun hreliable => ?_
  · obtain ⟨device, hwrite, rfl⟩ := Writer.moveTo_eq_ok_iff.mp hok
    rw [hafter, hstate]
    exact Device.grew_write (Position.over_motions _ _) hwrite
  · rw [hstate] at hreliable
    exact ⟨_, Writer.moveTo_of_none hreliable.writes target⟩

theorem flush {w : Writer} {state : σ} {after : Writer → σ} (hstate : dev state = w.device)
    (hafter : ∀ w', dev (after w') = w'.device) :
    (Attempt.ofExcept state w.flush after).Delivers kind dev w.device := by
  rw [← hstate]
  refine ofExcept (fun w' hok => ?_) fun hreliable => ?_
  · obtain ⟨device, hflush, rfl⟩ := Writer.flush_eq_ok_iff.mp hok
    rw [hafter, hstate]
    exact Device.grew_flush hflush
  · rw [hstate] at hreliable
    rw [Writer.flush, Device.flush_of_none hreliable.flushes]
    exact ⟨_, rfl⟩

end Delivers

/-- A drawing that completes has delivered all that its pen emitted. -/
theorem drawAt_subset {w : Writer} {place : Position} {draw : Pen → Pen} {state : σ}
    {after : Drawn → σ} (hafter : ∀ r, dev (after r) = r.writer.device) :
    (Attempt.ofExcept state (w.drawAt place draw) after).Ensures fun s =>
      (draw (w.penAt place)).emitted ⊆ (dev s).output := by
  refine ensures_ofExcept fun r hr => ?_
  obtain ⟨device, hwrite, rfl⟩ := Writer.commit_eq_ok_iff.mp hr
  obtain ⟨-, rfl⟩ := Device.write_eq_ok_iff.mp hwrite
  rw [hafter]
  exact List.subset_append_right _ _

end Attempt

end ProgressDisplay
