import ProgressDisplay.Proofs.Operations.Ancestry
import ProgressDisplay.Proofs.Operations.History

/-!
# Events that are refused

An event changes the forest, then the lines, then the headline. `inSteps` makes these changes in
place, one after the other, so that a refusal could come when some of them are made. It comes before
all of them, and so a run of events that stops at a refused one has made the changes of the events
before it and no other.

* `apply_eq`, `inSteps_eq`: an event makes all of its changes or none.
* `allInSteps_eq`: events applied change by change come to the same as the events as wholes.
* `applyAll_eq_some_iff`, `exists_refuses`: where a run of events stops.
-/

namespace ProgressDisplay.Tracker

variable {t t' : Tracker} {events : List Event} {e : Event} {violation : ProtocolViolation}

/-! ## Change by change -/

/-- The lines after an event that the forest has answered. -/
def linesAfter (t : Tracker) (answered : Forest) : Event → LineAssignment
  | .start id _ _ _ => (answered.get? id).elim t.lines t.lines.place
  | .complete id => (t.forest.get? id).elim t.lines fun o => t.lines.retire o answered
  | .progress _ _ | .endOfOutput => t.lines

/-- The changes that an event makes, one after the other. What was changed before a refusal stays
changed. -/
def inSteps (t : Tracker) (e : Event) : Attempt ProtocolViolation Tracker :=
  (((t.forest.inSteps e).map fun forest => { t with forest }).andThen fun s =>
    .done { s with lines := t.linesAfter s.forest e }).andThen fun s =>
      .done { s with headline := s.headline.after e }

/-- Events applied in order, change by change, until one is refused. -/
def allInSteps (events : List Event) (t : Tracker) : Attempt (Event × ProtocolViolation) Tracker :=
  .each (fun e t => (t.inSteps e).mapFailure fun violation => (e, violation)) events t

/-- It is the forest that refuses an event, and the lines and the headline follow its answer. -/
theorem apply_eq (t : Tracker) (e : Event) :
    t.apply e = (t.forest.answer e).map fun f =>
      { forest := f, lines := t.linesAfter f e, headline := t.headline.after e } := by
  cases e with
  | start id parent description status =>
    rw [apply, Forest.answer]
    cases hstart : t.forest.start id parent description status with
    | error violation => rfl
    | ok r =>
      have hattached : r.2.get? id = some r.1 := by rw [Forest.get?_started hstart, if_pos rfl]
      simp only [Except.map, linesAfter, hattached, Option.elim_some]
  | progress id status =>
    rw [apply, Forest.answer]
    cases t.forest.progress id status <;> rfl
  | complete id =>
    rw [apply, Forest.answer]
    cases hcomplete : t.forest.complete id with
    | error violation => rfl
    | ok r =>
      have hdetached : t.forest.get? id = some r.1 := (Forest.complete_eq_ok hcomplete).1
      simp only [Except.map, linesAfter, hdetached, Option.elim_some]
  | endOfOutput => rfl

theorem inSteps_eq (t : Tracker) (e : Event) :
    t.inSteps e = .ofExcept t (t.apply e) fun t' => t' := by
  rw [apply_eq, inSteps]
  cases hanswer : t.forest.answer e with
  | error violation =>
    rw [Forest.inSteps_of_error hanswer]
    rfl
  | ok f =>
    rw [Forest.inSteps_of_ok hanswer]
    rfl

theorem allInSteps_eq (events : List Event) (t : Tracker) :
    allInSteps events t = ⟨(applyAll events t).1, (applyAll events t).2⟩ := by
  induction events generalizing t with
  | nil => rfl
  | cons e rest ih =>
    rw [allInSteps, Attempt.each, inSteps_eq, applyAll]
    cases happlied : t.apply e with
    | ok next => exact ih next
    | error violation => rfl

/-! ## Where a run of events stops -/

/-- An event is the first of a run to be refused, in the state that those before it lead to. -/
def Refuses (t : Tracker) (events : List Event) (t' : Tracker) (e : Event)
    (violation : ProtocolViolation) : Prop :=
  ∃ before after, events = before ++ e :: after ∧ before.foldlM apply t = .ok t' ∧
    t'.apply e = .error violation

theorem refuses_cons {first : Event} {rest : List Event} {next : Tracker}
    (hfirst : t.apply first = .ok next) (h : next.Refuses rest t' e violation) :
    t.Refuses (first :: rest) t' e violation := by
  obtain ⟨before, after, rfl, hbefore, hrefused⟩ := h
  refine ⟨first :: before, after, rfl, ?_, hrefused⟩
  rw [List.foldlM_cons, hfirst]
  exact hbefore

theorem applyAll_eq_some_iff :
    applyAll events t = (t', some (e, violation)) ↔ t.Refuses events t' e violation := by
  constructor
  · intro h
    induction events generalizing t with
    | nil => cases h
    | cons first rest ih =>
      rw [applyAll] at h
      cases hfirst : t.apply first with
      | ok next =>
        rw [hfirst] at h
        exact refuses_cons hfirst (ih h)
      | error v =>
        rw [hfirst] at h
        cases h
        exact ⟨[], rest, rfl, rfl, hfirst⟩
  · rintro ⟨before, after, rfl, hbefore, hrefused⟩
    exact applyAll_of_refused hbefore hrefused

/-- A run that cannot be carried through stops at a refused event. -/
theorem exists_refuses (h : ∀ t', events.foldlM apply t ≠ .ok t') :
    ∃ t' e violation, t.Refuses events t' e violation := by
  rcases happlied : applyAll events t with ⟨t', _ | ⟨e, violation⟩⟩
  · exact absurd (applyAll_eq_none_iff.mp happlied) (h t')
  · exact ⟨t', e, violation, applyAll_eq_some_iff.mp happlied⟩

end ProgressDisplay.Tracker
