import ProgressDisplay.Proofs.Operations.History
import Mathlib.Data.List.Nodup

/-!
# Lines and their holders

The line that an operation holds is recorded with the operation and with the line. Both records say
the same after every run of events, every line is free or held, and no line stays free while an
operation waits.

* `Booked.size_lineOf_add_length_free`: held lines and free lines are all lines.
* `Busy.place`, `Busy.retire`: a start and a completion leave no line idle.
* `run_exclusive`: all of this after every run of events, for every number of lines.
-/

namespace ProgressDisplay

namespace Table

variable {α : Type} {t : Table α}

/-- The values of a table, by ascending ids. -/
def values (t : Table α) : List α := t.entries.map Prod.snd

theorem length_values : t.values.length = t.size := List.length_map _

theorem mem_values {value : α} : value ∈ t.values ↔ ∃ id, t.get? id = some value := by
  constructor
  · intro h
    obtain ⟨e, he, rfl⟩ := List.mem_map.mp h
    exact ⟨e.1, lookup_of_mem t.ascending he⟩
  · rintro ⟨id, hid⟩
    exact List.mem_map.mpr ⟨(id, value), mem_of_lookup hid, rfl⟩

/-- Where each value is found under one id only, no value occurs twice. -/
theorem nodup_values
    (h : ∀ id other value, t.get? id = some value → t.get? other = some value → id = other) :
    t.values.Nodup := by
  refine List.pairwise_map.mpr (t.ascending.imp_of_mem fun {e d} he hd hlt hsame => ?_)
  have hfound : t.get? d.1 = some e.2 := hsame ▸ lookup_of_mem t.ascending hd
  have hid := h e.1 d.1 e.2 (lookup_of_mem t.ascending he) hfound
  omega

end Table

namespace LineAssignment

variable {a : LineAssignment} {id p child : OperationId} {line : LineId} {f : Forest}

/-! ## The parts of a completion -/

/-- The assignment without the shadows that a completed operation cast or stood in. -/
def liftShadows (a : LineAssignment) (o : Operation) : LineAssignment :=
  match o.parent with
  | some p => removeShadow { a with shadows := a.shadows.erase o.id } p o.id
  | none => { a with shadows := a.shadows.erase o.id }

/-- The parent that a completed operation shadowed. -/
def shadowedParent (a : LineAssignment) (o : Operation) : Option OperationId :=
  o.parent.filter fun p => shadowedBy { a with shadows := a.shadows.erase o.id } p o.id

/-- Finds a line for a parent that is shadowed no more. -/
def restore (a : LineAssignment) (f : Forest) : Option OperationId → LineAssignment
  | some p => a.placeUnder p (f.parentOf p)
  | none => a

/-- Lifting shadows changes nothing else. -/
theorem exists_liftShadows_eq (a : LineAssignment) (o : Operation) :
    ∃ shadows, a.liftShadows o = { a with shadows } := by
  unfold liftShadows removeShadow
  split
  · split
    · exact ⟨_, rfl⟩
    · exact ⟨_, rfl⟩
  · exact ⟨_, rfl⟩

theorem retire_eq (a : LineAssignment) (o : Operation) (f : Forest) :
    a.retire o f =
      match a.lineOf.get? o.id with
      | none =>
        { a.liftShadows o with waiting := a.waiting.filter (· != o.id) }
      | some line =>
        (((a.liftShadows o).release o.id line).restore f (a.shadowedParent o)).fill := by
  obtain ⟨shadows, hlifted⟩ := exists_liftShadows_eq a o
  show (match (a.liftShadows o).lineOf.get? o.id with
    | none => { a.liftShadows o with waiting := (a.liftShadows o).waiting.filter (· != o.id) }
    | some line =>
      (((a.liftShadows o).release o.id line).restore f (a.shadowedParent o)).fill) = _
  rw [hlifted]

/-! ## Every line is free or held -/

namespace Booked

/-- No line is held twice. -/
theorem eq_of_lineOf (h : a.Booked) {other : OperationId} (hid : a.lineOf.get? id = some line)
    (hother : a.lineOf.get? other = some line) : id = other := by
  have howner := (h.agree id line).mp hid
  rw [(h.agree other line).mp hother] at howner
  exact (Option.some.inj howner).symm

theorem mem_values_lineOf (h : a.Booked) :
    line ∈ a.lineOf.values ↔ line < a.owners.length ∧ a.ownerOf line ≠ none := by
  rw [Table.mem_values]
  constructor
  · rintro ⟨id, hid⟩
    have howner := (h.agree id line).mp hid
    exact ⟨lt_of_ownerOf howner, by simp [howner]⟩
  · rintro ⟨-, howner⟩
    obtain ⟨id, hid⟩ := Option.ne_none_iff_exists'.mp howner
    exact ⟨id, (h.agree id line).mpr hid⟩

theorem perm_lines (h : a.Booked) :
    (a.lineOf.values ++ a.free).Perm (List.range a.owners.length) := by
  have hheld : a.lineOf.values.Nodup :=
    Table.nodup_values fun _ _ _ hid hother => h.eq_of_lineOf hid hother
  have hapart : a.lineOf.values.Disjoint a.free := fun line hline hfree =>
    (h.mem_values_lineOf.mp hline).2 ((h.mem_free line).mp hfree).2
  refine (List.perm_ext_iff_of_nodup (hheld.append h.nodup hapart) List.nodup_range).mpr
    fun line => ?_
  rw [List.mem_append, h.mem_values_lineOf, h.mem_free, List.mem_range, ← and_or_left]
  exact and_iff_left (ne_or_eq _ _)

theorem size_lineOf_add_length_free (h : a.Booked) :
    a.lineOf.size + a.free.length = a.owners.length := by
  rw [← Table.length_values, ← List.length_append, h.perm_lines.length_eq, List.length_range]

end Booked

/-! ## The number of lines -/

theorem length_owners_give : (a.give id line).owners.length = a.owners.length :=
  List.length_set

theorem length_owners_release : (a.release id line).owners.length = a.owners.length :=
  List.length_set

theorem length_owners_takeFree : (a.takeFree id).owners.length = a.owners.length := by
  unfold takeFree
  split
  · exact length_owners_give
  · rfl

theorem length_owners_placeUnder (parent : Option OperationId) :
    (a.placeUnder id parent).owners.length = a.owners.length := by
  unfold placeUnder
  split
  · exact length_owners_give
  · exact length_owners_takeFree

theorem length_owners_handOut {free : List LineId} {waiting : List OperationId} :
    (a.handOut free waiting).owners.length = a.owners.length := by
  fun_induction handOut a free waiting with
  | case1 a line free id waiting ih => rw [ih, length_owners_give]
  | case2 => rfl

theorem length_owners_restore (parent : Option OperationId) :
    (a.restore f parent).owners.length = a.owners.length := by
  cases parent with
  | none => rfl
  | some p => exact length_owners_placeUnder _

theorem length_owners_retire (o : Operation) :
    (a.retire o f).owners.length = a.owners.length := by
  obtain ⟨shadows, hlifted⟩ := exists_liftShadows_eq a o
  rw [retire_eq, hlifted]
  split
  · rfl
  · rw [fill, length_owners_handOut, length_owners_restore]
    exact length_owners_release

/-! ## No line is idle -/

/-- While an operation waits, no line is free. -/
def Busy (a : LineAssignment) : Prop := a.waiting ≠ [] → a.free = []

namespace Busy

theorem placeUnder (h : a.Busy) (parent : Option OperationId) :
    (a.placeUnder id parent).Busy := by
  unfold LineAssignment.placeUnder
  split
  · exact h
  · unfold takeFree
    split
    · rename_i line rest hfree
      -- A line was free before, so nobody waited then, and nobody has joined the queue.
      intro hwaiting
      have hnone := h hwaiting
      simp [hfree] at hnone
    · rename_i hfree
      exact fun _ => hfree

theorem place (h : a.Busy) (o : Operation) : (a.place o).Busy := h.placeUnder o.parent

theorem leave (h : a.Busy) (id : OperationId) :
    Busy { a with waiting := a.waiting.filter (· != id) } := fun hwaiting =>
  h fun hnil => hwaiting (by simp [hnil])

end Busy

/-- What is handed out ends with the free lines or with the queue. -/
theorem busy_handOut (free : List LineId) (waiting : List OperationId) :
    (a.handOut free waiting).Busy := by
  fun_induction handOut a free waiting with
  | case1 a line free id waiting ih => exact ih
  | case2 a free waiting hone =>
    -- Nothing more can be handed out, so one of the lists is empty.
    intro hwaiting
    cases free with
    | nil => rfl
    | cons line rest =>
      cases waiting with
      | nil => exact absurd rfl hwaiting
      | cons id others => exact absurd rfl (hone line rest id others rfl)

theorem Busy.retire (h : a.Busy) (o : Operation) (f : Forest) : (a.retire o f).Busy := by
  obtain ⟨shadows, hlifted⟩ := exists_liftShadows_eq a o
  rw [retire_eq, hlifted]
  split
  · exact h.leave o.id
  · exact busy_handOut _ _

end LineAssignment

namespace Tracker

open LineAssignment

variable {t t' : Tracker} {e : Event}

theorem length_owners_apply (h : t.apply e = .ok t') :
    t'.lines.owners.length = t.lines.owners.length := by
  cases e with
  | start id parent description status =>
    obtain ⟨r, -, rfl⟩ := eq_ok_of_map h
    exact length_owners_placeUnder _
  | progress id status =>
    obtain ⟨r, -, rfl⟩ := eq_ok_of_map h
    rfl
  | complete id =>
    obtain ⟨r, -, rfl⟩ := eq_ok_of_map h
    exact length_owners_retire _
  | endOfOutput =>
    obtain rfl := Except.ok.inj h
    rfl

theorem busy_apply (hbusy : t.lines.Busy) (h : t.apply e = .ok t') : t'.lines.Busy := by
  cases e with
  | start id parent description status =>
    obtain ⟨r, -, rfl⟩ := eq_ok_of_map h
    exact hbusy.place r.1
  | progress id status =>
    obtain ⟨r, -, rfl⟩ := eq_ok_of_map h
    exact hbusy
  | complete id =>
    obtain ⟨r, -, rfl⟩ := eq_ok_of_map h
    exact hbusy.retire r.1 r.2
  | endOfOutput =>
    obtain rfl := Except.ok.inj h
    exact hbusy

theorem length_owners_run (count : Nat) (events : List Event) :
    (run events (ofLines count)).lines.owners.length = count :=
  run_induction (P := fun t => t.lines.owners.length = count) List.length_replicate
    (fun _ _ _ h ha => (length_owners_apply ha).trans h) events

theorem busy_run (count : Nat) (events : List Event) :
    (run events (ofLines count)).lines.Busy :=
  run_induction (P := fun t => t.lines.Busy) (fun hwaiting => absurd rfl hwaiting)
    (fun _ _ _ h ha => busy_apply h ha) events

/-- After every run of events, an operation holds a line exactly if the line has it as its owner,
the free lines are those without an owner and each stands once among them, the lines held and the
lines free are as many as there are, every owner runs, and no line is free while an operation
waits. -/
theorem run_exclusive (count : Nat) (events : List Event) :
    let t := run events (ofLines count)
    (∀ id line, t.lines.lineOf.get? id = some line ↔ t.lines.ownerOf line = some id) ∧
    t.lines.free.Nodup ∧
    (∀ line, line ∈ t.lines.free ↔ line < count ∧ t.lines.ownerOf line = none) ∧
    t.lines.lineOf.size + t.lines.free.length = count ∧
    (∀ line id, t.lines.ownerOf line = some id → t.forest.contains id = true) ∧
    (t.lines.waiting ≠ [] → t.lines.free = []) := by
  intro t
  have harranged := ((sound_ofLines count).run events).arranged
  have hbooked := harranged.booked
  have hlength : t.lines.owners.length = count := length_owners_run count events
  refine ⟨hbooked.agree, hbooked.nodup, fun line => ?_, ?_, fun line id howner => ?_,
    busy_run count events⟩
  · rw [← hlength]
    exact hbooked.mem_free line
  · rw [← hlength]
    exact hbooked.size_lineOf_add_length_free
  · exact harranged.mem_of_lineOf ((hbooked.agree id line).mpr howner)

end Tracker

end ProgressDisplay
