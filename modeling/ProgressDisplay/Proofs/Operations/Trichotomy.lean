import ProgressDisplay.Proofs.Operations.History
import Mathlib.Logic.Relation

/-!
# Every running operation is in one situation

Whatever the events were, a running operation is on a line, in the queue, or in the shadow of one
child, and never in two of these. An operation in the shadow has a descendant on a line, which the
shadows lead to.

* `run_trichotomy`: this holds after every run of events, for every number of lines.
-/

namespace ProgressDisplay

namespace LineAssignment

variable {f : Forest} {settled : Set OperationId} {a : LineAssignment} {id : OperationId}

/-- The ways for an operation to stand. -/
inductive Situation where
  | onLine
  | inQueue
  | inShadowOf (child : OperationId)

def Stands (a : LineAssignment) (id : OperationId) : Situation → Prop
  | .onLine => a.OnLine id
  | .inQueue => a.InQueue id
  | .inShadowOf child => a.InShadowOf id child

theorem Stands.unique {s s' : Situation} (h : a.Stands id s) (h' : a.Stands id s') : s = s' := by
  have hcount : a.waiting.count id = 1 → id ∈ a.waiting := fun h =>
    List.count_pos_iff.mp (h ▸ Nat.one_pos)
  cases s <;> cases s' <;> simp only [Stands, OnLine, InQueue, InShadowOf] at h h'
  case onLine.onLine => rfl
  case inQueue.inQueue => rfl
  case inShadowOf.inShadowOf => simpa [h.2.2] using h'.2.2
  case onLine.inQueue => simp [h'.1] at h
  case onLine.inShadowOf => simp [h'.1] at h
  case inQueue.onLine => simp [h.1] at h'
  case inQueue.inShadowOf => exact absurd (hcount h.2.1) h'.2.1
  case inShadowOf.onLine => simp [h.1] at h'
  case inShadowOf.inQueue => exact absurd (hcount h'.2.1) h.2.1

namespace Arranged

theorem existsUnique_situation (h : Arranged f settled a) (hid : id ∈ settled) :
    ∃! s, a.Stands id s := by
  obtain ⟨s, hs⟩ : ∃ s, a.Stands id s := by
    rcases h.standing id hid with ho | hq | ⟨child, hs⟩
    · exact ⟨.onLine, ho⟩
    · exact ⟨.inQueue, hq⟩
    · exact ⟨.inShadowOf child, hs⟩
  exact ⟨s, hs, fun s' hs' => hs'.unique hs⟩

theorem onLine_or_inShadow_of_shadows {child p : OperationId}
    (h : Arranged f {id | f.contains id} a) (hshadows : a.Shadows child p) :
    f.parentOf child = some p ∧ (a.OnLine child ∨ ∃ other, a.InShadowOf child other) := by
  obtain ⟨children, hchildren, hmem⟩ := hshadows
  obtain ⟨only, rfl, hparent, hwait⟩ := h.shadow p children hchildren
  obtain rfl := List.mem_singleton.mp hmem
  refine ⟨hparent, ?_⟩
  rcases h.standing child (Forest.contains_of_parentOf hparent) with ho | hq | hs
  · exact Or.inl ho
  · exact absurd (List.count_pos_iff.mp (hq.2.1 ▸ Nat.one_pos)) hwait
  · exact Or.inr hs

/-- The shadows below an operation lead to one that holds a line, since a walk down from an
operation to its children ends. -/
theorem exists_holder (hf : f.Coherent) (h : Arranged f {id | f.contains id} a)
    {child : OperationId} (hs : a.InShadowOf id child) :
    ∃ holder, Relation.TransGen (fun upper lower => a.Shadows lower upper) id holder ∧
      a.OnLine holder := by
  induction hf.grounded.apply id generalizing child with
  | intro id _ ih =>
    have hshadows : a.Shadows child id := ⟨_, hs.2.2, List.mem_singleton_self child⟩
    obtain ⟨hparent, ho | ⟨other, hother⟩⟩ := h.onLine_or_inShadow_of_shadows hshadows
    · exact ⟨child, .single hshadows, ho⟩
    · obtain ⟨holder, hpath, hline⟩ := ih child hparent hother
      exact ⟨holder, .head hshadows hpath, hline⟩

end Arranged

end LineAssignment

namespace Tracker

open LineAssignment

/-- After every run of events, each running operation is in exactly one situation, with one child
if it is shadowed. What does not run has no part in the assignment, the queue or the shadows. A
shadowing child runs, is a child of what it shadows, and is on a line or shadowed itself. Down
the shadows of an operation there is a descendant on a line, where they end. -/
theorem run_trichotomy (count : Nat) (events : List Event) :
    let t := run events (ofLines count)
    (∀ id, t.forest.contains id = true → ∃! s, t.lines.Stands id s) ∧
    (∀ id, t.forest.contains id = false →
      t.lines.Nowhere id ∧ (∀ line, t.lines.ownerOf line ≠ some id) ∧
        ∀ p, ¬t.lines.Shadows id p) ∧
    (∀ child p, t.lines.Shadows child p →
      t.forest.contains child = true ∧ t.forest.parentOf child = some p ∧
        (t.lines.OnLine child ∨ ∃ other, t.lines.InShadowOf child other)) ∧
    ∀ id child, t.lines.InShadowOf id child → ∃ holder,
      Relation.TransGen (fun upper lower => t.lines.Shadows lower upper) id holder ∧
        Relation.TransGen (fun upper lower => t.forest.parentOf lower = some upper) id holder ∧
        t.forest.contains holder = true ∧ t.lines.OnLine holder := by
  intro t
  obtain ⟨hf, ha⟩ := (sound_ofLines count).run events
  refine ⟨fun id hid => ha.existsUnique_situation hid, fun id hid => ⟨?_, ?_, ?_⟩,
    fun child p hshadows => ?_, fun id child hs => ?_⟩
  · exact ha.nowhere id (by simpa using hid)
  · intro line howner
    have hruns := ha.mem_of_lineOf ((ha.booked.agree id line).mpr howner)
    simp [t, hid] at hruns
  · exact fun p => ha.not_shadows hid
  · obtain ⟨hparent, hstands⟩ := ha.onLine_or_inShadow_of_shadows hshadows
    exact ⟨Forest.contains_of_parentOf hparent, hparent, hstands⟩
  · obtain ⟨holder, hpath, hline⟩ := ha.exists_holder hf hs
    have hdown := Relation.TransGen.mono
      (fun _ _ hshadows => (ha.onLine_or_inShadow_of_shadows hshadows).1) _ _ hpath
    obtain ⟨line, hline'⟩ := hline.1
    exact ⟨holder, hpath, hdown, ha.mem_of_lineOf hline', hline⟩

end Tracker

end ProgressDisplay
