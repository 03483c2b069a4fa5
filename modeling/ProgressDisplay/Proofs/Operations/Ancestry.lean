import ProgressDisplay.Proofs.Completion
import ProgressDisplay.Proofs.Operations.Kinship
import Mathlib.Data.List.Nodup
import Mathlib.Data.List.Perm.Subperm
import Mathlib.Data.Nat.Find

/-!
# Ancestors of running operations

A walk from a running operation to its parents ends at an operation without a parent, after fewer
steps than operations run. This and all else that makes the forest exact survives every request,
because a request is carried out as a whole or not at all: `inSteps` writes to the forest one
change after the other, and no refusal comes after the first of them.

* `Coherent.lt_size_of_ancestor`, `Coherent.exists_root`: how far up a walk can go.
* `inSteps_of_error`, `inSteps_of_ok`: the steps of a request come to all of it or to nothing.
* `run_exact`: what is true of the forest after every sequence of requests.
-/

namespace ProgressDisplay.Forest

variable {f f' : Forest} {id a p : OperationId} {o : Operation} {steps : Nat}

/-! ## Walks to parents -/

/-- The operation that is so many parents up, if there is one. -/
def ancestor (f : Forest) : Nat → OperationId → Option OperationId
  | 0, id => some id
  | steps + 1, id => (f.ancestor steps id).bind f.parentOf

theorem ancestor_add (f : Forest) (first second : Nat) (id : OperationId) :
    f.ancestor (first + second) id = (f.ancestor first id).bind (f.ancestor second) := by
  induction second with
  | zero => exact (Option.bind_fun_some _).symm
  | succ second ih =>
    rw [Nat.add_succ, ancestor, ih, Option.bind_assoc]
    rfl

theorem transGen_of_ancestor (h : f.ancestor (steps + 1) id = some a) :
    Relation.TransGen (fun child parent => f.parentOf child = some parent) id a := by
  induction steps generalizing a with
  | zero => exact .single h
  | succ steps ih =>
    obtain ⟨child, hchild, hparent⟩ := Option.bind_eq_some_iff.mp h
    exact .tail (ih hchild) hparent

namespace Coherent

theorem contains_of_ancestor (hf : f.Coherent) (hid : f.contains id = true)
    (h : f.ancestor steps id = some a) : f.contains a = true := by
  cases steps with
  | zero =>
    obtain rfl := Option.some.inj h
    exact hid
  | succ steps =>
    obtain ⟨child, -, hparent⟩ := Option.bind_eq_some_iff.mp h
    exact hf.parent_runs hparent

/-- No operation is an ancestor of its own. -/
theorem ancestor_ne_self (hf : f.Coherent) (steps : Nat) (id : OperationId) :
    f.ancestor (steps + 1) id ≠ some id := fun h =>
  hf.grounded.transGen.irrefl.irrefl id (transGen_of_ancestor h)

theorem ancestor_inj (hf : f.Coherent) {first second : Nat} (hlt : first < second)
    (h : f.ancestor second id = some a) : f.ancestor first id ≠ some a := by
  obtain ⟨steps, rfl⟩ := Nat.exists_eq_add_of_lt hlt
  intro hfirst
  rw [Nat.add_assoc, ancestor_add, hfirst, Option.bind_some] at h
  exact hf.ancestor_ne_self steps a h

/-- The operations on a walk are all different, so it has fewer steps than operations run. -/
theorem lt_size_of_ancestor (hf : f.Coherent) (hid : f.contains id = true)
    (h : f.ancestor steps id = some a) : steps < f.size := by
  have hbelow : ∀ first ≤ steps, ∃ b, f.ancestor first id = some b := by
    intro first hle
    rw [← Nat.add_sub_cancel' hle, ancestor_add] at h
    obtain ⟨b, hb, -⟩ := Option.bind_eq_some_iff.mp h
    exact ⟨b, hb⟩
  have hdistinct : ((List.range (steps + 1)).map fun first => f.ancestor first id).Nodup := by
    refine List.Nodup.map_on (fun first hfirst second hsecond heq => ?_) List.nodup_range
    obtain ⟨b, hb⟩ := hbelow first (Nat.le_of_lt_succ (List.mem_range.mp hfirst))
    rcases Nat.lt_trichotomy first second with hlt | rfl | hgt
    · exact absurd hb (hf.ancestor_inj hlt (heq ▸ hb))
    · rfl
    · exact absurd (heq ▸ hb) (hf.ancestor_inj hgt hb)
  have hrunning : ((List.range (steps + 1)).map fun first => f.ancestor first id) ⊆
      f.operations.ids.map some := by
    intro b hb
    obtain ⟨first, hfirst, rfl⟩ := List.mem_map.mp hb
    obtain ⟨b, hb⟩ := hbelow first (Nat.le_of_lt_succ (List.mem_range.mp hfirst))
    obtain ⟨o, ho⟩ := contains_iff.mp (hf.contains_of_ancestor hid hb)
    rw [hb]
    exact List.mem_map_of_mem (List.mem_map_of_mem (f := Prod.fst) (Table.mem_of_lookup ho))
  have hlength := (hdistinct.subperm hrunning).length_le
  rw [List.length_map, List.length_range, List.length_map, Table.ids, List.length_map] at hlength
  exact hlength

theorem exists_root (hf : f.Coherent) (hid : f.contains id = true) :
    ∃ steps < f.size, ∃ root r,
      f.ancestor steps id = some root ∧ f.get? root = some r ∧ r.parent = none := by
  -- The walk that is one step longer than possible has no end, so some walk is the longest.
  have hends : ∃ steps, f.ancestor steps id = none := by
    refine ⟨f.size, Option.eq_none_iff_forall_ne_some.mpr fun a ha => ?_⟩
    exact Nat.lt_irrefl _ (hf.lt_size_of_ancestor hid ha)
  obtain ⟨steps, hlast⟩ : ∃ steps, Nat.find hends = steps + 1 := by
    refine Nat.exists_eq_succ_of_ne_zero fun hzero => ?_
    have hnone := Nat.find_spec hends
    rw [hzero] at hnone
    cases hnone
  obtain ⟨root, hroot⟩ := Option.ne_none_iff_exists'.mp
    (Nat.find_min hends (show steps < Nat.find hends by omega))
  obtain ⟨r, hr⟩ := contains_iff.mp (hf.contains_of_ancestor hid hroot)
  refine ⟨steps, hf.lt_size_of_ancestor hid hroot, root, r, hroot, hr, ?_⟩
  have hnone := Nat.find_spec hends
  rw [hlast, ancestor, hroot, Option.bind_some, parentOf, hr] at hnone
  exact hnone

/-- The parent of an operation that completes counts it as a child until then. -/
theorem pos_of_complete (hf : f.Coherent) (h : f.complete id = .ok (o, f'))
    (hp : o.parent = some p) :
    ∃ q, (f.erase id).get? p = some q ∧ 0 < q.runningChildren := by
  obtain ⟨hid, -, -⟩ := complete_eq_ok h
  have hparent : f.parentOf id = some p := parentOf_eq_some_iff.mpr ⟨o, hid, hp⟩
  obtain ⟨q, hq⟩ := contains_iff.mp (hf.parent_runs hparent)
  refine ⟨q, ?_, ?_⟩
  · have hne : id ≠ p := fun heq => hf.childless_of_complete h id (heq ▸ hparent)
    rw [get?, erase, Table.get?_erase, if_neg hne]
    exact hq
  · rw [hf.children hq]
    exact Table.count_pos_of_get? hid (by simpa using hp)

end Coherent

/-! ## Requests -/

/-- What a request makes of the forest, unless it is refused. -/
def answer (f : Forest) : Event → Except ProtocolViolation Forest
  | .start id parent description status => (f.start id parent description status).map Prod.snd
  | .progress id status => (f.progress id status).map Prod.snd
  | .complete id => (f.complete id).map Prod.snd
  | .endOfOutput => .ok f

/-- Goes on where a condition holds, and refuses the request elsewhere. -/
def demand (f : Forest) (condition : Prop) [Decidable condition] (violation : ProtocolViolation)
    (next : Forest → Attempt ProtocolViolation Forest) : Attempt ProtocolViolation Forest :=
  if condition then next f else ⟨f, some violation⟩

/-- Counts a new child at its parent. -/
def countUnder (f : Forest) (id : OperationId) (parent : Option OperationId) :
    Attempt ProtocolViolation Forest :=
  match parent with
  | none => .done f
  | some p => f.demand (f.contains p) (.parentNotRunning id p) fun f => .done (f.addChild p)

/-- Removes a running operation. -/
def remove (f : Forest) (id : OperationId) : Attempt ProtocolViolation Forest :=
  f.demand (f.contains id) (.notRunning id) fun f => .done (f.erase id)

/-- The changes that a request makes, one after the other. What was changed before a refusal stays
changed. -/
def inSteps (f : Forest) : Event → Attempt ProtocolViolation Forest
  | .start id parent description status =>
    f.demand (¬f.contains id) (.alreadyStarted id) fun f =>
      (f.countUnder id parent).andThen fun f =>
        .done (f.insert { id, parent, description, status })
  | .progress id status =>
    f.demand (f.contains id) (.notRunning id) fun f =>
      .done (f.modify id fun o => { o with status })
  | .complete id =>
    match f.get? id with
    | none => ⟨f, some (.notRunning id)⟩
    | some o =>
      f.demand (o.runningChildren = 0) (.childrenRunning id o.runningChildren) fun f =>
        (f.remove id).andThen fun f => .done (o.parent.elim f f.removeChild)
  | .endOfOutput => .done f

theorem inSteps_start (f : Forest) (id : OperationId) (parent : Option OperationId)
    (description status : String) :
    f.inSteps (.start id parent description status) =
      .ofExcept f (f.start id parent description status) Prod.snd := by
  rw [inSteps, demand, start]
  cases f.contains id with
  | true => rfl
  | false =>
    cases parent with
    | none => rfl
    | some p =>
      simp only [countUnder, demand, Bool.false_eq_true, not_false_eq_true, if_true, if_false]
      cases f.contains p with
      | true => rfl
      | false => rfl

theorem inSteps_progress (f : Forest) (id : OperationId) (status : String) :
    f.inSteps (.progress id status) = .ofExcept f (f.progress id status) Prod.snd := by
  rw [inSteps, demand, progress, contains]
  cases f.get? id with
  | none => rfl
  | some o => rfl

theorem inSteps_complete (f : Forest) (id : OperationId) :
    f.inSteps (.complete id) = .ofExcept f (f.complete id) Prod.snd := by
  rw [inSteps, complete]
  cases hid : f.get? id with
  | none => rfl
  | some o =>
    have hruns : f.contains id = true := contains_iff.mpr ⟨o, hid⟩
    simp only
    rw [demand, remove, demand, if_pos hruns]
    by_cases hidle : o.runningChildren = 0
    · rw [if_pos hidle, if_neg (by omega)]
      cases o.parent with
      | none => rfl
      | some p => rfl
    · rw [if_neg hidle, if_pos (Nat.pos_of_ne_zero hidle)]
      rfl

theorem inSteps_eq (f : Forest) (e : Event) :
    f.inSteps e = .ofExcept f (f.answer e) fun f' => f' := by
  cases e with
  | start id parent description status =>
    rw [inSteps_start, answer]
    cases f.start id parent description status <;> rfl
  | progress id status =>
    rw [inSteps_progress, answer]
    cases f.progress id status <;> rfl
  | complete id =>
    rw [inSteps_complete, answer]
    cases f.complete id <;> rfl
  | endOfOutput => rfl

theorem inSteps_of_error {e : Event} {violation : ProtocolViolation}
    (h : f.answer e = .error violation) : f.inSteps e = ⟨f, some violation⟩ := by
  rw [inSteps_eq, h]
  rfl

theorem inSteps_of_ok {e : Event} (h : f.answer e = .ok f') : f.inSteps e = .done f' := by
  rw [inSteps_eq, h]
  rfl

/-- The forest after requests, of which some may have been refused. -/
def run (requests : List Event) (f : Forest) : Forest :=
  requests.foldl (fun f e => (f.inSteps e).state) f

namespace Coherent

theorem inSteps (hf : f.Coherent) (e : Event) : (f.inSteps e).state.Coherent := by
  cases e with
  | start id parent description status =>
    rw [inSteps_start]
    cases h : f.start id parent description status with
    | ok r => exact hf.start h
    | error violation => exact hf
  | progress id status =>
    rw [inSteps_progress]
    cases h : f.progress id status with
    | ok r => exact hf.progress h
    | error violation => exact hf
  | complete id =>
    rw [inSteps_complete]
    cases h : f.complete id with
    | ok r => exact hf.complete h
    | error violation => exact hf
  | endOfOutput => exact hf

theorem run (hf : f.Coherent) (requests : List Event) : (f.run requests).Coherent :=
  List.foldlRecOn requests _ hf fun _ hf e _ => hf.inSteps e

end Coherent

/-- After every sequence of requests, refused ones among them: each operation is stored under its
own id, its parent runs, it counts as many children as name it as their parent, and fewer steps to
parents than operations run lead to one without a parent. No operation is an ancestor of its own.
When an operation completes, its parent counts a child that can be taken off. A request that is
refused, after whatever changes, has changed nothing, and one that is granted changes what it is
to change. -/
theorem run_exact (requests : List Event) :
    let f := run requests empty
    (∀ id o, f.get? id = some o →
      o.id = id ∧ (∀ p, o.parent = some p → f.contains p = true) ∧
      o.runningChildren = f.childCount id ∧
      ∃ steps < f.size, ∃ root r,
        f.ancestor steps id = some root ∧ f.get? root = some r ∧ r.parent = none) ∧
    (∀ id steps, f.ancestor (steps + 1) id ≠ some id) ∧
    (∀ id o f', f.complete id = .ok (o, f') → ∀ p, o.parent = some p →
      ∃ q, (f.erase id).get? p = some q ∧ 0 < q.runningChildren) ∧
    (∀ e violation, f.answer e = .error violation → f.inSteps e = ⟨f, some violation⟩) ∧
    (∀ e f', f.answer e = .ok f' → f.inSteps e = .done f') := by
  intro f
  have hf : f.Coherent := coherent_empty.run requests
  refine ⟨fun id o hid => ⟨hf.own_id hid, fun p hp => ?_, hf.children hid, ?_⟩,
    fun id steps => hf.ancestor_ne_self steps id, fun id o f' h p hp => hf.pos_of_complete h hp,
    fun e violation h => inSteps_of_error h, fun e f' h => inSteps_of_ok h⟩
  · exact hf.parent_runs (parentOf_eq_some_iff.mpr ⟨o, hid, hp⟩)
  · exact hf.exists_root (contains_iff.mpr ⟨o, hid⟩)

end ProgressDisplay.Forest
