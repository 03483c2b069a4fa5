/-!
# Tables keyed by number

A `Table` maps finitely many ids, which are numbers, to values. Its entries are kept in ascending
order of their ids, so two tables with the same answers are equal.

* `get?_insert`, `get?_erase`: what a look-up finds after a change.
* `ext_get?`: a table is determined by its look-ups.
-/

namespace ProgressDisplay

structure Table (α : Type) where
  entries : List (Nat × α)
  ascending : entries.Pairwise fun a b => a.1 < b.1

namespace Table

variable {α : Type}

/-- The first value stored under an id. -/
def lookup (id : Nat) : List (Nat × α) → Option α
  | [] => none
  | e :: rest => if e.1 = id then some e.2 else lookup id rest

/-- An entry put in its place, in front of the first entry with a larger id. -/
def place (id : Nat) (value : α) : List (Nat × α) → List (Nat × α)
  | [] => [(id, value)]
  | e :: rest =>
    if id < e.1 then (id, value) :: e :: rest
    else if id = e.1 then (id, value) :: rest
    else e :: place id value rest

theorem mem_place {id : Nat} {value : α} {entries : List (Nat × α)}
    {e : Nat × α} (h : e ∈ place id value entries) : e = (id, value) ∨ e ∈ entries := by
  induction entries with
  | nil => simpa [place] using h
  | cons first rest ih =>
    simp only [place] at h
    split at h
    · exact List.mem_cons.mp h
    · split at h
      · exact (List.mem_cons.mp h).imp_right (List.mem_cons_of_mem first)
      · rcases List.mem_cons.mp h with rfl | h
        · exact Or.inr List.mem_cons_self
        · exact (ih h).imp_right (List.mem_cons_of_mem first)

theorem pairwise_place {id : Nat} {value : α} {entries : List (Nat × α)}
    (h : entries.Pairwise fun a b => a.1 < b.1) :
    (place id value entries).Pairwise fun a b => a.1 < b.1 := by
  induction entries with
  | nil => simp [place]
  | cons first rest ih =>
    obtain ⟨hfirst, hrest⟩ := List.pairwise_cons.mp h
    simp only [place]
    split
    · rename_i hlt
      refine List.pairwise_cons.mpr ⟨fun e he => ?_, h⟩
      rcases List.mem_cons.mp he with rfl | he
      · exact hlt
      · exact Nat.lt_trans hlt (hfirst e he)
    · split
      · rename_i heq
        exact List.pairwise_cons.mpr ⟨fun e he => heq ▸ hfirst e he, hrest⟩
      · refine List.pairwise_cons.mpr ⟨fun e he => ?_, ih hrest⟩
        rcases mem_place he with rfl | he
        · show first.1 < id
          omega
        · exact hfirst e he

def empty : Table α := ⟨[], .nil⟩

def get? (t : Table α) (id : Nat) : Option α := lookup id t.entries

def contains (t : Table α) (id : Nat) : Bool := (t.get? id).isSome

/-- The table with a value under an id, in place of any value it had there. -/
def insert (t : Table α) (id : Nat) (value : α) : Table α :=
  ⟨place id value t.entries, pairwise_place t.ascending⟩

/-- The table with nothing under an id. -/
def erase (t : Table α) (id : Nat) : Table α :=
  ⟨t.entries.filter fun e => e.1 != id, t.ascending.filter _⟩

/-- The table with the value under an id changed, if there is one. -/
def modify (t : Table α) (id : Nat) (f : α → α) : Table α :=
  match t.get? id with
  | some value => t.insert id (f value)
  | none => t

def size (t : Table α) : Nat := t.entries.length

/-- The ids of the table, ascending. -/
def ids (t : Table α) : List Nat := t.entries.map Prod.fst

/-! ## Look-ups -/

theorem lookup_eq_none {id : Nat} {entries : List (Nat × α)}
    (h : ∀ e ∈ entries, e.1 ≠ id) : lookup id entries = none := by
  induction entries with
  | nil => rfl
  | cons e rest ih =>
    simp [lookup, h e List.mem_cons_self, ih fun e he => h e (List.mem_cons_of_mem _ he)]

theorem lookup_place (id other : Nat) (value : α) {entries : List (Nat × α)}
    (h : entries.Pairwise fun a b => a.1 < b.1) :
    lookup other (place id value entries) =
      if id = other then some value else lookup other entries := by
  induction entries with
  | nil => rfl
  | cons e rest ih =>
    obtain ⟨hfirst, hrest⟩ := List.pairwise_cons.mp h
    simp only [place]
    split
    · rfl
    · split
      · rename_i heq
        simp only [lookup, heq]
        split <;> rfl
      · rename_i hne
        simp only [lookup, ih hrest]
        by_cases ho : e.1 = other
        · have : id ≠ other := fun h => hne (h.trans ho.symm)
          simp [ho, this]
        · simp [ho]

theorem lookup_filter (id other : Nat) (entries : List (Nat × α)) :
    lookup other (entries.filter fun e => e.1 != id) =
      if id = other then none else lookup other entries := by
  induction entries with
  | nil => simp [lookup]
  | cons e rest ih =>
    by_cases he : e.1 = id
    · have hf : (e.1 != id) = false := by simp [he]
      rw [List.filter_cons_of_neg (by simp [hf]), ih]
      split
      · rfl
      · rename_i hne
        simp [lookup, he, hne]
    · have hf : (e.1 != id) = true := by simp [he]
      rw [List.filter_cons_of_pos (by simp [hf])]
      simp only [lookup, ih]
      by_cases ho : e.1 = other
      · have : id ≠ other := fun h => he (ho.trans h.symm)
        simp [ho, this]
      · simp [ho]

@[simp] theorem get?_empty (id : Nat) : (empty : Table α).get? id = none := rfl

theorem get?_insert (t : Table α) (id other : Nat) (value : α) :
    (t.insert id value).get? other = if id = other then some value else t.get? other :=
  lookup_place id other value t.ascending

theorem get?_erase (t : Table α) (id other : Nat) :
    (t.erase id).get? other = if id = other then none else t.get? other :=
  lookup_filter id other t.entries

theorem get?_modify (t : Table α) (id other : Nat) (f : α → α) :
    (t.modify id f).get? other = if id = other then (t.get? other).map f else t.get? other := by
  unfold modify
  split
  · rename_i value h
    rw [get?_insert]
    split
    · rename_i heq
      subst heq
      simp [h]
    · rfl
  · rename_i h
    split
    · rename_i heq
      subst heq
      simp [h]
    · rfl

/-! ## Extensionality -/

theorem entries_eq_of_lookup : ∀ {a b : List (Nat × α)},
    (a.Pairwise fun x y => x.1 < y.1) → (b.Pairwise fun x y => x.1 < y.1) →
    (∀ id, lookup id a = lookup id b) → a = b
  | [], [], _, _, _ => rfl
  | [], e :: rest, _, _, h => by simpa [lookup] using h e.1
  | e :: rest, [], _, _, h => by simpa [lookup] using h e.1
  | (i, v) :: as, (j, w) :: bs, ha, hb, h => by
    obtain ⟨ha1, ha2⟩ := List.pairwise_cons.mp ha
    obtain ⟨hb1, hb2⟩ := List.pairwise_cons.mp hb
    have hij : i = j := by
      rcases Nat.lt_trichotomy i j with hlt | heq | hgt
      · have hn : lookup i ((j, w) :: bs) = none := lookup_eq_none fun e he => by
          rcases List.mem_cons.mp he with rfl | he
          · exact Nat.ne_of_gt hlt
          · exact Nat.ne_of_gt (Nat.lt_trans hlt (hb1 e he))
        have := h i
        rw [hn] at this
        simp [lookup] at this
      · exact heq
      · have hn : lookup j ((i, v) :: as) = none := lookup_eq_none fun e he => by
          rcases List.mem_cons.mp he with rfl | he
          · exact Nat.ne_of_gt hgt
          · exact Nat.ne_of_gt (Nat.lt_trans hgt (ha1 e he))
        have := h j
        rw [hn] at this
        simp [lookup] at this
    subst hij
    have hvw : v = w := by simpa [lookup] using h i
    subst hvw
    have hrest : as = bs := entries_eq_of_lookup ha2 hb2 fun id => by
      by_cases hi : i = id
      · subst hi
        rw [lookup_eq_none fun e he => Nat.ne_of_gt (ha1 e he),
          lookup_eq_none fun e he => Nat.ne_of_gt (hb1 e he)]
      · simpa [lookup, hi] using h id
    rw [hrest]

theorem ext_get? {a b : Table α} (h : ∀ id, a.get? id = b.get? id) : a = b := by
  obtain ⟨as, ha⟩ := a
  obtain ⟨bs, hb⟩ := b
  have := entries_eq_of_lookup ha hb h
  subst this
  rfl

end Table

end ProgressDisplay
