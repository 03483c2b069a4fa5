import ProgressDisplay.Operations.Headline
import ProgressDisplay.Operations.LineAssignment

/-!
# What the events say

A `Tracker` is what the events so far amount to: the running operations, their lines, and the
headline of the build.

* `applyAll_append`: events applied in two parts give the same as all at once.
-/

namespace ProgressDisplay

structure Tracker where
  forest : Forest := .empty
  lines : LineAssignment
  headline : Headline := {}

namespace Tracker

/-- Before any event. -/
def ofLines (count : Nat) : Tracker := { lines := .ofLines count }

/-- The tracker after an event, unless the event contradicts it. -/
def apply (t : Tracker) (e : Event) : Except ProtocolViolation Tracker :=
  match e with
  | .start id parent description status =>
    (t.forest.start id parent description status).map fun r =>
      { forest := r.2, lines := t.lines.place r.1, headline := t.headline.after e }
  | .progress id status =>
    (t.forest.progress id status).map fun r =>
      { t with forest := r.2, headline := t.headline.after e }
  | .complete id =>
    (t.forest.complete id).map fun r =>
      { forest := r.2, lines := t.lines.retire r.1 r.2, headline := t.headline.after e }
  | .endOfOutput => .ok { t with headline := t.headline.after e }

/-- The tracker that a run of events has reached, and the event that stopped it, if one
contradicted those before it. -/
def applyAll : List Event → Tracker → Tracker × Option (Event × ProtocolViolation)
  | [], t => (t, none)
  | e :: rest, t =>
    match t.apply e with
    | .ok t => applyAll rest t
    | .error violation => (t, some (e, violation))

theorem applyAll_append {first second : List Event} {t t' : Tracker}
    (h : applyAll first t = (t', none)) :
    applyAll (first ++ second) t = applyAll second t' := by
  induction first generalizing t with
  | nil =>
    simp only [applyAll, Prod.mk.injEq, and_true] at h
    rw [h, List.nil_append]
  | cons e rest ih =>
    simp only [applyAll, List.cons_append] at h ⊢
    cases ha : t.apply e with
    | ok t'' =>
      rw [ha] at h
      exact ih h
    | error violation =>
      rw [ha] at h
      simp at h

end Tracker

end ProgressDisplay
