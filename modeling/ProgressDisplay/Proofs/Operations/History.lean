import ProgressDisplay.Proofs.Operations.Standing

/-!
# Runs of events

`run` applies events in order. An event that is refused changes nothing, and the run goes on. What
holds before the first event and is kept by every accepted one holds after every run. `applyAll`
goes no further than the first event that is refused.

* `Sound.run`: after every run the forest is coherent and all that runs is arranged on the lines.
* `applyAll_eq_none_iff`, `applyAll_of_refused`: `applyAll` is a fold that stops at a refusal.
-/

namespace ProgressDisplay.Tracker

/-- The tracker after an event, which has no effect if it is refused. -/
def step (t : Tracker) (e : Event) : Tracker :=
  match t.apply e with
  | .ok t' => t'
  | .error _ => t

def run (events : List Event) (t : Tracker) : Tracker := events.foldl step t

theorem run_induction {P : Tracker → Prop} {t : Tracker} (hstart : P t)
    (hstep : ∀ t t' e, P t → t.apply e = .ok t' → P t') (events : List Event) :
    P (run events t) := by
  induction events generalizing t with
  | nil => exact hstart
  | cons e rest ih =>
    refine ih ?_
    unfold step
    cases ha : t.apply e with
    | ok t' => exact hstep t t' e hstart ha
    | error violation => exact hstart

/-- The parts of a tracker fit together. -/
structure Sound (t : Tracker) : Prop where
  coherent : t.forest.Coherent
  arranged : t.lines.Arranged t.forest {id | t.forest.contains id}

theorem sound_ofLines (count : Nat) : (ofLines count).Sound where
  coherent := Forest.coherent_empty
  arranged := by
    refine ⟨.ofLines count, fun id hid => ?_, fun id _ => ⟨rfl, ?_, rfl⟩, fun p children h => ?_⟩
    · simp [ofLines, Forest.contains, Forest.get?, Forest.empty] at hid
    · simp [ofLines, LineAssignment.ofLines]
    · simp [ofLines, LineAssignment.ofLines] at h

theorem eq_ok_of_map {ε α β : Type} {x : Except ε α} {g : α → β} {b : β}
    (h : x.map g = .ok b) : ∃ a, x = .ok a ∧ g a = b := by
  cases x with
  | ok a => exact ⟨a, rfl, Except.ok.inj h⟩
  | error e => cases h

theorem Sound.apply {t t' : Tracker} {e : Event} (h : t.Sound) (ha : t.apply e = .ok t') :
    t'.Sound := by
  cases e with
  | start id parent description status =>
    obtain ⟨⟨o, f⟩, hstart, rfl⟩ := eq_ok_of_map ha
    exact ⟨h.coherent.start hstart, h.arranged.place hstart⟩
  | progress id status =>
    obtain ⟨⟨o, f⟩, hprogress, rfl⟩ := eq_ok_of_map ha
    refine ⟨h.coherent.progress hprogress, ?_⟩
    have hsame : {id | f.contains id = true} = {id | t.forest.contains id = true} := by
      ext other
      simp [Forest.contains_progressed hprogress]
    rw [hsame]
    refine h.arranged.reforest fun child p _ hchild => ?_
    rw [Forest.parentOf_progressed hprogress, hchild]
  | complete id =>
    obtain ⟨⟨o, f⟩, hcomplete, rfl⟩ := eq_ok_of_map ha
    exact ⟨h.coherent.complete hcomplete, h.arranged.retire h.coherent hcomplete⟩
  | endOfOutput =>
    obtain rfl := Except.ok.inj ha
    exact ⟨h.coherent, h.arranged⟩

theorem Sound.run {t : Tracker} (h : t.Sound) (events : List Event) : (t.run events).Sound :=
  run_induction h (fun _ _ _ h ha => h.apply ha) events

theorem headline_apply {t t' : Tracker} {e : Event} (h : t.apply e = .ok t') :
    t'.headline = t.headline.after e := by
  cases e with
  | endOfOutput =>
    obtain rfl := Except.ok.inj h
    rfl
  | _ =>
    obtain ⟨r, -, rfl⟩ := eq_ok_of_map h
    rfl

/-! ## Up to the first refusal -/

section

variable {first second : List Event} {t t' : Tracker} {e : Event} {violation : ProtocolViolation}

theorem foldlM_cons_eq_ok_iff : (e :: first).foldlM apply t = .ok t' ↔
    ∃ next, t.apply e = .ok next ∧ first.foldlM apply next = .ok t' := by
  rw [List.foldlM_cons]
  cases t.apply e <;> simp [bind, Except.bind]

theorem foldlM_append_eq_ok_iff : (first ++ second).foldlM apply t = .ok t' ↔
    ∃ next, first.foldlM apply t = .ok next ∧ second.foldlM apply next = .ok t' := by
  rw [List.foldlM_append]
  cases first.foldlM apply t <;> simp [bind, Except.bind]

theorem applyAll_eq_none_iff : applyAll first t = (t', none) ↔ first.foldlM apply t = .ok t' := by
  induction first generalizing t with
  | nil => simp [applyAll, pure, Except.pure]
  | cons e rest ih =>
    rw [applyAll, List.foldlM_cons]
    cases ha : t.apply e with
    | ok next => exact ih
    | error violation => simp [bind, Except.bind]

theorem applyAll_of_refused (hfirst : first.foldlM apply t = .ok t')
    (hrefused : t'.apply e = .error violation) :
    applyAll (first ++ e :: second) t = (t', some (e, violation)) := by
  rw [applyAll_append (applyAll_eq_none_iff.mpr hfirst), applyAll, hrefused]

theorem applyAll_append_of_refused {refusal : Event × ProtocolViolation}
    (h : applyAll first t = (t', some refusal)) :
    applyAll (first ++ second) t = (t', some refusal) := by
  induction first generalizing t with
  | nil => simp [applyAll] at h
  | cons e rest ih =>
    rw [applyAll] at h
    rw [List.cons_append, applyAll]
    cases ha : t.apply e with
    | ok next =>
      rw [ha] at h
      exact ih h
    | error violation =>
      rw [ha] at h
      exact h

end

end ProgressDisplay.Tracker
