import ProgressDisplay.Operations.Forest
import Mathlib.Order.WellFounded

/-!
# Parents and children of running operations

`Forest.Coherent` is what every forest satisfies that came about by starting and completing
operations: each operation is stored under its own id, parents run, the counter of running
children is exact, and a walk from an operation to its children ends.

* `get?_started`, `get?_completed`: what an accepted start or completion does to the forest.
* `Coherent.start`, `Coherent.complete`: both keep a forest coherent.
* `Coherent.childless_of_complete`: what may complete is nobody's parent.
-/

namespace ProgressDisplay

namespace Table

variable {α : Type}

/-- How many values of a table pass a test. -/
def count (t : Table α) (test : α → Bool) : Nat := t.entries.countP fun e => test e.2

theorem countP_place (id : Nat) (value : α) (test : α → Bool) {entries : List (Nat × α)}
    (h : entries.Pairwise fun a b => a.1 < b.1) :
    (place id value entries).countP (fun e => test e.2) +
        ((lookup id entries).elim 0 fun old => (test old).toNat) =
      entries.countP (fun e => test e.2) + (test value).toNat := by
  induction entries with
  | nil => cases hv : test value <;> simp [place, lookup, hv]
  | cons e rest ih =>
    obtain ⟨hfirst, hrest⟩ := List.pairwise_cons.mp h
    simp only [place]
    split
    · rename_i hlt
      have hnone : lookup id (e :: rest) = none := lookup_eq_none fun d hd => by
        rcases List.mem_cons.mp hd with rfl | hd
        · exact Nat.ne_of_gt hlt
        · exact Nat.ne_of_gt (Nat.lt_trans hlt (hfirst d hd))
      rw [hnone, List.countP_cons]
      cases hv : test value <;> simp
    · split
      · rename_i heq
        simp only [lookup, heq, List.countP_cons, if_true, Option.elim_some]
        cases hv : test value <;> cases he : test e.2 <;> simp
      · rename_i hne
        have hne' : e.1 ≠ id := fun h => hne h.symm
        have := ih hrest
        simp only [lookup, hne', if_false, List.countP_cons]
        omega

theorem countP_filter_ne (id : Nat) (test : α → Bool) {entries : List (Nat × α)}
    (h : entries.Pairwise fun a b => a.1 < b.1) :
    (entries.filter fun e => e.1 != id).countP (fun e => test e.2) +
        ((lookup id entries).elim 0 fun old => (test old).toNat) =
      entries.countP fun e => test e.2 := by
  induction entries with
  | nil => simp [lookup]
  | cons e rest ih =>
    obtain ⟨hfirst, hrest⟩ := List.pairwise_cons.mp h
    have := ih hrest
    by_cases he : e.1 = id
    · have hnone : lookup id rest = none :=
        lookup_eq_none fun d hd => Nat.ne_of_gt (he ▸ hfirst d hd)
      rw [hnone] at this
      simp only [lookup, he, List.countP_cons, bne_self_eq_false, Bool.false_eq_true,
        not_false_eq_true, List.filter_cons_of_neg, if_true, Option.elim_some]
      simp only [Option.elim_none] at this
      cases ht : test e.2 <;> simp <;> omega
    · have hf : (e.1 != id) = true := by simpa using he
      rw [List.filter_cons_of_pos (by simp [hf])]
      simp only [lookup, he, if_false, List.countP_cons]
      omega

theorem count_insert (t : Table α) (id : Nat) (value : α) (test : α → Bool) :
    (t.insert id value).count test + ((t.get? id).elim 0 fun old => (test old).toNat) =
      t.count test + (test value).toNat :=
  countP_place id value test t.ascending

theorem count_erase (t : Table α) (id : Nat) (test : α → Bool) :
    (t.erase id).count test + ((t.get? id).elim 0 fun old => (test old).toNat) = t.count test :=
  countP_filter_ne id test t.ascending

theorem count_modify (t : Table α) (id : Nat) (f : α → α) {test : α → Bool}
    (hf : ∀ value, test (f value) = test value) : (t.modify id f).count test = t.count test := by
  unfold modify
  split
  · rename_i value h
    have := count_insert t id (f value) test
    rw [h, Option.elim_some, hf] at this
    omega
  · rfl

/-- A value that passes the test is counted. -/
theorem count_pos_of_get? {t : Table α} {id : Nat} {value : α} {test : α → Bool}
    (h : t.get? id = some value) (ht : test value = true) : 0 < t.count test := by
  have := count_erase t id test
  rw [h, Option.elim_some, ht] at this
  simp at this
  omega

theorem lookup_of_mem {entries : List (Nat × α)} (h : entries.Pairwise fun a b => a.1 < b.1)
    {e : Nat × α} (he : e ∈ entries) : lookup e.1 entries = some e.2 := by
  induction entries with
  | nil => simp at he
  | cons first rest ih =>
    obtain ⟨hfirst, hrest⟩ := List.pairwise_cons.mp h
    rcases List.mem_cons.mp he with rfl | he
    · simp [lookup]
    · have hne : first.1 ≠ e.1 := Nat.ne_of_lt (hfirst e he)
      simp [lookup, hne, ih hrest he]

theorem mem_of_lookup {id : Nat} {value : α} {entries : List (Nat × α)}
    (h : lookup id entries = some value) : (id, value) ∈ entries := by
  induction entries with
  | nil => cases h
  | cons e rest ih =>
    unfold lookup at h
    split at h
    · rename_i hid
      obtain rfl := Option.some.inj h
      rw [← hid]
      exact List.mem_cons_self
    · exact List.mem_cons_of_mem e (ih h)

/-- What is counted is a stored value that passes the test. -/
theorem exists_of_count_pos {t : Table α} {test : α → Bool} (h : 0 < t.count test) :
    ∃ id value, t.get? id = some value ∧ test value = true := by
  obtain ⟨e, he, ht⟩ := List.countP_pos_iff.mp h
  exact ⟨e.1, e.2, lookup_of_mem t.ascending he, ht⟩

theorem erase_of_get?_none {t : Table α} {id : Nat} (h : t.get? id = none) : t.erase id = t := by
  apply ext_get?
  intro other
  rw [get?_erase]
  split
  · rename_i heq
    rw [← heq, h]
  · rfl

theorem insert_of_get? {t : Table α} {id : Nat} {value : α} (h : t.get? id = some value) :
    t.insert id value = t := by
  apply ext_get?
  intro other
  rw [get?_insert]
  split
  · rename_i heq
    rw [← heq, h]
  · rfl

end Table

namespace Forest

variable {f f' : Forest} {id : OperationId} {parent : Option OperationId}
  {description status : String} {o : Operation}

/-- How many running operations name an operation as their parent. -/
def childCount (f : Forest) (id : OperationId) : Nat :=
  f.operations.count fun o => o.parent == some id

theorem contains_iff : f.contains id = true ↔ ∃ o, f.get? id = some o := by
  simp [contains, Option.isSome_iff_exists]

theorem parentOf_eq_some_iff {p : OperationId} :
    f.parentOf id = some p ↔ ∃ o, f.get? id = some o ∧ o.parent = some p := by
  simp [parentOf, Option.bind_eq_some_iff]

theorem contains_of_parentOf {p : OperationId} (h : f.parentOf id = some p) :
    f.contains id = true := by
  obtain ⟨o, ho, -⟩ := parentOf_eq_some_iff.mp h
  exact contains_iff.mpr ⟨o, ho⟩

/-! ## What an accepted change does -/

theorem start_eq_ok (h : f.start id parent description status = .ok (o, f')) :
    f.contains id = false ∧ (∀ p, parent = some p → f.contains p = true) ∧
      o = { id, parent, description, status } ∧
      f' = (parent.elim f f.addChild).insert o := by
  unfold start at h
  cases hid : f.contains id with
  | true => simp [hid] at h
  | false =>
    cases parent with
    | none =>
      simp only [hid, Bool.false_eq_true, if_false, Except.ok.injEq, Prod.mk.injEq] at h
      obtain ⟨rfl, rfl⟩ := h
      simp
    | some p =>
      cases hp : f.contains p with
      | false => simp [hid, hp] at h
      | true =>
        simp only [hid, hp, Bool.false_eq_true, if_false, if_true, Except.ok.injEq,
          Prod.mk.injEq] at h
        obtain ⟨rfl, rfl⟩ := h
        simp [hp]

theorem complete_eq_ok (h : f.complete id = .ok (o, f')) :
    f.get? id = some o ∧ o.runningChildren = 0 ∧
      f' = o.parent.elim (f.erase id) (f.erase id).removeChild := by
  unfold complete at h
  cases hid : f.get? id with
  | none => simp [hid] at h
  | some o' =>
    by_cases hc : 0 < o'.runningChildren
    · simp [hid, hc] at h
    · cases hp : o'.parent with
      | none =>
        simp only [hid, hc, hp, if_false, Except.ok.injEq, Prod.mk.injEq] at h
        obtain ⟨rfl, rfl⟩ := h
        simp only [hp, Option.elim_none, and_true, true_and]
        omega
      | some p =>
        simp only [hid, hc, hp, if_false, Except.ok.injEq, Prod.mk.injEq] at h
        obtain ⟨rfl, rfl⟩ := h
        simp only [hp, Option.elim_some, and_true, true_and]
        omega

theorem progress_eq_ok (h : f.progress id status = .ok (o, f')) :
    f' = f.modify id fun o => { o with status } := by
  unfold progress at h
  cases hid : f.get? id with
  | none => simp [hid] at h
  | some o' =>
    simp only [hid, Except.ok.injEq, Prod.mk.injEq] at h
    exact h.2.symm

theorem get?_started (h : f.start id parent description status = .ok (o, f'))
    (other : OperationId) :
    f'.get? other =
      if id = other then some o
      else if parent = some other then
        (f.get? other).map fun p => { p with runningChildren := p.runningChildren + 1 }
      else f.get? other := by
  obtain ⟨-, -, rfl, rfl⟩ := start_eq_ok h
  cases parent with
  | none => simp [get?, insert, Table.get?_insert]
  | some p => simp [get?, insert, addChild, modify, Table.get?_insert, Table.get?_modify]

theorem get?_completed (h : f.complete id = .ok (o, f')) (other : OperationId) :
    f'.get? other =
      if id = other then none
      else if o.parent = some other then
        (f.get? other).map fun p => { p with runningChildren := p.runningChildren - 1 }
      else f.get? other := by
  obtain ⟨-, -, rfl⟩ := complete_eq_ok h
  cases hp : o.parent with
  | none => simp [get?, erase, Table.get?_erase]
  | some p =>
    simp only [Option.elim_some, get?, erase, removeChild, modify, Table.get?_erase,
      Table.get?_modify, Option.some.injEq]
    by_cases hid : id = other <;> by_cases hpo : p = other <;> simp [hid, hpo]

theorem get?_progressed (h : f.progress id status = .ok (o, f')) (other : OperationId) :
    f'.get? other =
      if id = other then (f.get? other).map fun p => { p with status } else f.get? other := by
  rw [progress_eq_ok h]
  exact Table.get?_modify _ _ _ _

theorem parentOf_started (h : f.start id parent description status = .ok (o, f'))
    (other : OperationId) :
    f'.parentOf other = if id = other then parent else f.parentOf other := by
  have ho := (start_eq_ok h).2.2.1
  simp only [parentOf, get?_started h]
  split
  · simp [ho]
  · split
    · cases f.get? other <;> rfl
    · rfl

theorem parentOf_completed (h : f.complete id = .ok (o, f')) (other : OperationId) :
    f'.parentOf other = if id = other then none else f.parentOf other := by
  simp only [parentOf, get?_completed h]
  split
  · rfl
  · split
    · cases f.get? other <;> rfl
    · rfl

theorem parentOf_progressed (h : f.progress id status = .ok (o, f')) (other : OperationId) :
    f'.parentOf other = f.parentOf other := by
  simp only [parentOf, get?_progressed h]
  split
  · cases f.get? other <;> rfl
  · rfl

theorem contains_started (h : f.start id parent description status = .ok (o, f'))
    (other : OperationId) :
    f'.contains other = true ↔ other = id ∨ f.contains other = true := by
  simp only [contains, get?_started h]
  split
  · simp_all
  · rename_i hne
    have hne' : ¬other = id := fun h => hne h.symm
    split <;> simp [hne']

theorem contains_completed (h : f.complete id = .ok (o, f')) (other : OperationId) :
    f'.contains other = true ↔ other ≠ id ∧ f.contains other = true := by
  simp only [contains, get?_completed h]
  split
  · simp_all
  · rename_i hne
    have hne' : ¬other = id := fun h => hne h.symm
    split <;> simp [hne']

theorem contains_progressed (h : f.progress id status = .ok (o, f')) (other : OperationId) :
    f'.contains other = f.contains other := by
  simp only [contains, get?_progressed h]
  split <;> simp

theorem childCount_started (h : f.start id parent description status = .ok (o, f'))
    (other : OperationId) :
    f'.childCount other = f.childCount other + if parent = some other then 1 else 0 := by
  obtain ⟨hid, -, rfl, rfl⟩ := start_eq_ok h
  have hnew : ((parent.elim f f.addChild).operations.get? id) = none := by
    have hf : f.operations.get? id = none := by simpa [contains, get?] using hid
    cases parent with
    | none => exact hf
    | some p => simp [addChild, modify, Table.get?_modify, hf]
  have hsame : (parent.elim f f.addChild).childCount other = f.childCount other := by
    cases parent with
    | none => rfl
    | some p => exact Table.count_modify _ _ _ fun _ => rfl
  have := Table.count_insert (parent.elim f f.addChild).operations id
    { id, parent, description, status } fun o => o.parent == some other
  rw [hnew, Option.elim_none, Nat.add_zero] at this
  rw [← hsame]
  simp only [childCount, insert] at this ⊢
  rw [this]
  by_cases hp : parent = some other <;> simp [hp]

theorem childCount_completed (h : f.complete id = .ok (o, f')) (other : OperationId) :
    f'.childCount other + (if o.parent = some other then 1 else 0) = f.childCount other := by
  obtain ⟨hid, -, rfl⟩ := complete_eq_ok h
  have hsame : (o.parent.elim (f.erase id) (f.erase id).removeChild).childCount other =
      (f.erase id).childCount other := by
    cases o.parent with
    | none => rfl
    | some p => exact Table.count_modify _ _ _ fun _ => rfl
  have := Table.count_erase f.operations id fun o => o.parent == some other
  rw [show f.operations.get? id = some o from hid, Option.elim_some] at this
  rw [hsame]
  simp only [childCount, erase] at this ⊢
  rw [← this]
  by_cases hp : o.parent = some other <;> simp [hp]

theorem childCount_progressed (h : f.progress id status = .ok (o, f')) (other : OperationId) :
    f'.childCount other = f.childCount other := by
  rw [progress_eq_ok h]
  exact Table.count_modify _ _ _ fun _ => rfl

/-! ## Coherence -/

/-- The shape of every forest that was built by starting and completing operations. -/
structure Coherent (f : Forest) : Prop where
  own_id : ∀ {id o}, f.get? id = some o → o.id = id
  parent_runs : ∀ {id p}, f.parentOf id = some p → f.contains p = true
  children : ∀ {id o}, f.get? id = some o → o.runningChildren = f.childCount id
  grounded : WellFounded fun child parent => f.parentOf child = some parent

theorem coherent_empty : empty.Coherent where
  own_id h := by simp [get?, empty] at h
  parent_runs h := by simp [parentOf, get?, empty] at h
  children h := by simp [get?, empty] at h
  grounded := ⟨fun id => ⟨id, fun child h => by simp [parentOf, get?, empty] at h⟩⟩

namespace Coherent

theorem childless (hf : f.Coherent) (hid : f.contains id = false) : f.childCount id = 0 := by
  by_contra hne
  obtain ⟨child, o, ho, hp⟩ := Table.exists_of_count_pos (Nat.pos_of_ne_zero hne)
  have := hf.parent_runs (parentOf_eq_some_iff.mpr ⟨o, ho, by simpa using hp⟩)
  simp [this] at hid

/-- An operation that may complete is nobody's parent. -/
theorem childless_of_complete (hf : f.Coherent) (h : f.complete id = .ok (o, f'))
    (other : OperationId) :
    f.parentOf other ≠ some id := by
  intro hother
  obtain ⟨hid, hzero, -⟩ := complete_eq_ok h
  obtain ⟨child, hchild, hp⟩ := parentOf_eq_some_iff.mp hother
  have hpos : 0 < f.childCount id := Table.count_pos_of_get? hchild (by simpa using hp)
  have := hf.children hid
  omega

theorem start (hf : f.Coherent) (h : f.start id parent description status = .ok (o, f')) :
    f'.Coherent := by
  obtain ⟨hid, hparent, ho, -⟩ := start_eq_ok h
  have hpne : parent ≠ some id := fun hp => by simp [hparent id hp] at hid
  refine ⟨?_, ?_, ?_, ⟨fun other => ?_⟩⟩
  · intro other o' h'
    rw [get?_started h] at h'
    split at h'
    · rename_i heq
      cases h'
      rw [ho, heq]
    · split at h'
      · obtain ⟨q, hq, rfl⟩ := Option.map_eq_some_iff.mp h'
        have := hf.own_id hq
        exact this
      · exact hf.own_id h'
  · intro other p hp
    rw [parentOf_started h] at hp
    rw [contains_started h]
    split at hp
    · exact Or.inr (hparent p hp)
    · exact Or.inr (hf.parent_runs hp)
  · intro other o' h'
    rw [childCount_started h]
    rw [get?_started h] at h'
    split at h'
    · rename_i heq
      cases h'
      subst heq
      simp [ho, hf.childless hid, hpne]
    · split at h'
      · obtain ⟨q, hq, rfl⟩ := Option.map_eq_some_iff.mp h'
        simp [hf.children hq, *]
      · simp [hf.children h', *]
  · -- The new operation has no children, so a walk down to it ends there.
    have hnew : Acc (fun child parent => f'.parentOf child = some parent) id := by
      refine ⟨id, fun child hchild => ?_⟩
      rw [parentOf_started h] at hchild
      split at hchild
      · exact absurd hchild hpne
      · simp [hf.parent_runs hchild] at hid
    induction hf.grounded.apply other with
    | intro other _ ih =>
      refine ⟨other, fun child hchild => ?_⟩
      rw [parentOf_started h] at hchild
      split at hchild
      · rename_i heq
        exact heq ▸ hnew
      · exact ih child hchild

theorem complete (hf : f.Coherent) (h : f.complete id = .ok (o, f')) : f'.Coherent := by
  have hchild := fun other => hf.childless_of_complete h other
  refine ⟨?_, ?_, ?_, ?_⟩
  · intro other o' h'
    rw [get?_completed h] at h'
    split at h'
    · cases h'
    · split at h'
      · obtain ⟨q, hq, rfl⟩ := Option.map_eq_some_iff.mp h'
        have := hf.own_id hq
        exact this
      · exact hf.own_id h'
  · intro other p hp
    rw [parentOf_completed h] at hp
    rw [contains_completed h]
    split at hp
    · cases hp
    · exact ⟨fun heq => hchild other (heq ▸ hp), hf.parent_runs hp⟩
  · intro other o' h'
    have hcount := childCount_completed h other
    rw [get?_completed h] at h'
    split at h'
    · cases h'
    · split at h'
      · obtain ⟨q, hq, rfl⟩ := Option.map_eq_some_iff.mp h'
        have := hf.children hq
        simp_all
        omega
      · have := hf.children h'
        simp_all
  · refine Subrelation.wf (fun {child p} hp => ?_) hf.grounded
    rw [parentOf_completed h] at hp
    split at hp
    · cases hp
    · exact hp

/-- What an operation says about its progress is no part of what makes a forest coherent. -/
theorem progress (hf : f.Coherent) (h : f.progress id status = .ok (o, f')) : f'.Coherent := by
  have hget := fun other => get?_progressed h other
  have hparent := fun other => parentOf_progressed h other
  refine ⟨?_, ?_, ?_, ?_⟩
  · intro other o' h'
    rw [hget] at h'
    split at h'
    · obtain ⟨q, hq, rfl⟩ := Option.map_eq_some_iff.mp h'
      have := hf.own_id hq
      exact this
    · exact hf.own_id h'
  · intro other p hp
    rw [hparent] at hp
    rw [contains_progressed h]
    exact hf.parent_runs hp
  · intro other o' h'
    rw [childCount_progressed h]
    rw [hget] at h'
    split at h'
    · obtain ⟨q, hq, rfl⟩ := Option.map_eq_some_iff.mp h'
      have := hf.children hq
      exact this
    · exact hf.children h'
  · simpa only [hparent] using hf.grounded

end Coherent

end Forest

end ProgressDisplay
