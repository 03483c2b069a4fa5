import ProgressDisplay.Operations.Tracker
import ProgressDisplay.Proofs.Operations.Kinship
import Mathlib.Data.Set.Insert

/-!
# Where the running operations stand

A running operation holds a line, waits for one, or is shadowed by one child. `Arranged` says this
of a set of settled operations, which between two events are all that run. While a completed
operation gives back its line, its parent may be unsettled for a moment: the shadow is lifted
before the parent is placed again.

* `Booked.giveFree`, `Booked.takeOver`, `Booked.release`: the two books of lines keep agreeing.
* `Arranged.placeUnder`, `Arranged.fill`: an unsettled operation is settled; the queue is served.
* `Arranged.place`, `Arranged.retire`: a start and a completion keep all running operations settled.
-/

namespace ProgressDisplay.LineAssignment

variable {f f' : Forest} {settled : Set OperationId} {a : LineAssignment}
  {id p child : OperationId} {line : LineId}

/-! ## The books of lines -/

/-- The line of an operation and the owner of a line say the same, and the free lines are those
without an owner. -/
structure Booked (a : LineAssignment) : Prop where
  agree : ∀ id line, a.lineOf.get? id = some line ↔ a.ownerOf line = some id
  nodup : a.free.Nodup
  mem_free : ∀ line, line ∈ a.free ↔ line < a.owners.length ∧ a.ownerOf line = none

theorem join_getElem?_set {owners : List (Option OperationId)} (h : line < owners.length)
    (owner : Option OperationId) (other : LineId) :
    ((owners.set line owner)[other]?).join =
      if line = other then owner else (owners[other]?).join := by
  rw [List.getElem?_set]
  split
  · simp
  · rfl

theorem lt_of_ownerOf (h : a.ownerOf line = some id) : line < a.owners.length := by
  by_contra hge
  rw [ownerOf, List.getElem?_eq_none (Nat.le_of_not_lt hge)] at h
  cases h

theorem ownerOf_give (h : line < a.owners.length) (other : LineId) :
    (a.give id line).ownerOf other = if line = other then some id else a.ownerOf other :=
  join_getElem?_set h (some id) other

theorem lineOf_give (other : OperationId) :
    (a.give id line).lineOf.get? other =
      if id = other then some line
      else if a.ownerOf line = some other then none else a.lineOf.get? other := by
  unfold give
  rw [Table.get?_insert]
  cases a.ownerOf line with
  | none => simp
  | some previous => simp [Table.get?_erase]

/-- A line taken from its owner by name is taken from it once. -/
theorem give_erase_owner (h : a.ownerOf line = some p) :
    ({ a with lineOf := a.lineOf.erase p } : LineAssignment).give id line = a.give id line := by
  have howner : LineAssignment.ownerOf { a with lineOf := a.lineOf.erase p } line = some p := h
  have htwice : (a.lineOf.erase p).erase p = a.lineOf.erase p :=
    Table.erase_of_get?_none (by simp [Table.get?_erase])
  simp only [give, howner, h, htwice]

namespace Booked

/-- A line that is given to an operation without one has that operation as its only owner. -/
theorem give_agree (h : a.Booked) (hlen : line < a.owners.length)
    (hid : a.lineOf.get? id = none) (other : OperationId) (l : LineId) :
    (a.give id line).lineOf.get? other = some l ↔ (a.give id line).ownerOf l = some other := by
  rw [lineOf_give, ownerOf_give hlen]
  by_cases hother : id = other
  · by_cases hl : line = l
    · simp [hother, hl]
    · have hnone : a.ownerOf l ≠ some other := fun ho => by
        rw [← hother, ← h.agree, hid] at ho
        cases ho
      simp [hother, hl, hnone]
  · by_cases hl : line = l
    · have hlost : a.ownerOf line ≠ some other → a.lineOf.get? other ≠ some l := fun ho hline =>
        ho (hl ▸ (h.agree other l).mp hline)
      simpa [hother, hl] using hlost
    · have hkept : a.lineOf.get? other = some l → a.ownerOf line ≠ some other :=
        fun hline howner => by
          rw [← h.agree, hline] at howner
          exact hl (Option.some.inj howner).symm
      by_cases ho : a.ownerOf line = some other
      · have : a.ownerOf l ≠ some other := fun hol => hkept ((h.agree other l).mpr hol) ho
        simp [hother, hl, ho, this]
      · simp [hother, hl, ho, h.agree other l]

theorem giveFree {rest : List LineId} (h : a.Booked) (hfree : a.free = line :: rest)
    (hid : a.lineOf.get? id = none) :
    (LineAssignment.give { a with free := rest } id line).Booked := by
  obtain ⟨hlen, -⟩ := (h.mem_free line).mp (hfree ▸ List.mem_cons_self)
  obtain ⟨hline, hrest⟩ := List.nodup_cons.mp (hfree ▸ h.nodup)
  refine ⟨fun other l => ?_, hrest, fun l => ?_⟩
  · exact h.give_agree hlen hid other l
  · have hset : (LineAssignment.give { a with free := rest } id line).ownerOf l =
        if line = l then some id else a.ownerOf l := join_getElem?_set hlen (some id) l
    rw [hset]
    have hmem := h.mem_free l
    rw [hfree, List.mem_cons] at hmem
    by_cases hl : line = l
    · subst hl
      simp [give, hline]
    · have hl' : ¬l = line := fun h => hl h.symm
      simpa [give, hl, hl'] using hmem

theorem takeOver (h : a.Booked) (hline : a.lineOf.get? p = some line)
    (hid : a.lineOf.get? id = none) : (a.give id line).Booked := by
  have howner := (h.agree p line).mp hline
  have hlen := lt_of_ownerOf howner
  refine ⟨h.give_agree hlen hid, h.nodup, fun l => ?_⟩
  rw [ownerOf_give hlen]
  have hmem := h.mem_free l
  by_cases hl : line = l
  · subst hl
    simpa [give, howner] using hmem
  · simpa [give, hl] using hmem

theorem release (h : a.Booked) (hline : a.lineOf.get? id = some line) :
    (a.release id line).Booked := by
  have howner := (h.agree id line).mp hline
  have hlen := lt_of_ownerOf howner
  have hset : ∀ l, (a.release id line).ownerOf l = if line = l then none else a.ownerOf l :=
    join_getElem?_set hlen none
  have hlines : ∀ other, (a.release id line).lineOf.get? other =
      if id = other then none else a.lineOf.get? other := a.lineOf.get?_erase id
  refine ⟨fun other l => ?_, List.nodup_cons.mpr ⟨?_, h.nodup⟩, fun l => ?_⟩
  · rw [hset, hlines]
    by_cases hother : id = other <;> by_cases hl : line = l
    · simp [hother, hl]
    · simp only [hother, if_true, hl, if_false]
      have : a.lineOf.get? other ≠ some l := by
        rw [← hother, hline]
        exact fun h => hl (Option.some.inj h)
      simpa [h.agree] using this
    · simp only [hother, if_false, hl, if_true]
      have : a.lineOf.get? other ≠ some l := fun hother' => by
        rw [← hl, h.agree, howner] at hother'
        exact hother (Option.some.inj hother')
      simp [this]
    · simp [hother, hl, h.agree]
  · simp [h.mem_free, howner]
  · rw [hset]
    have hmem := h.mem_free l
    by_cases hl : line = l
    · subst hl
      simp [LineAssignment.release, hlen]
    · have hl' : ¬l = line := fun h => hl h.symm
      simpa [LineAssignment.release, hl, hl'] using hmem

theorem ofLines (count : Nat) : (ofLines count).Booked := by
  have hnone : ∀ line, (LineAssignment.ofLines count).ownerOf line = none := fun line => by
    simp only [ownerOf, LineAssignment.ofLines, List.getElem?_replicate]
    split <;> rfl
  refine ⟨fun id line => ?_, List.nodup_range, fun line => ?_⟩
  · rw [hnone]
    simp [LineAssignment.ofLines]
  · rw [hnone]
    simp [LineAssignment.ofLines]

end Booked

/-! ## The three situations -/

/-- The operation holds a line and nothing else. -/
def OnLine (a : LineAssignment) (id : OperationId) : Prop :=
  (∃ line, a.lineOf.get? id = some line) ∧ id ∉ a.waiting ∧ a.shadows.get? id = none

/-- The operation stands once in the queue and nowhere else. -/
def InQueue (a : LineAssignment) (id : OperationId) : Prop :=
  a.lineOf.get? id = none ∧ a.waiting.count id = 1 ∧ a.shadows.get? id = none

/-- The operation is shadowed by one child and is nowhere else. -/
def InShadowOf (a : LineAssignment) (id child : OperationId) : Prop :=
  a.lineOf.get? id = none ∧ id ∉ a.waiting ∧ a.shadows.get? id = some [child]

/-- The operation holds no line, does not wait and is not shadowed. -/
def Nowhere (a : LineAssignment) (id : OperationId) : Prop :=
  a.lineOf.get? id = none ∧ id ∉ a.waiting ∧ a.shadows.get? id = none

/-- A child took over the line of its parent and still runs. -/
def Shadows (a : LineAssignment) (child p : OperationId) : Prop :=
  ∃ children, a.shadows.get? p = some children ∧ child ∈ children

theorem shadowedBy_iff : a.shadowedBy p child = true ↔ a.Shadows child p := by
  unfold shadowedBy Shadows
  cases a.shadows.get? p <;> simp

/-- Every settled operation is in one of the three situations and all others are in none. A
shadowing child never waits. -/
structure Arranged (f : Forest) (settled : Set OperationId) (a : LineAssignment) : Prop where
  booked : a.Booked
  standing : ∀ id ∈ settled, a.OnLine id ∨ a.InQueue id ∨ ∃ child, a.InShadowOf id child
  nowhere : ∀ id ∉ settled, a.Nowhere id
  shadow : ∀ p children, a.shadows.get? p = some children →
    ∃ child, children = [child] ∧ f.parentOf child = some p ∧ child ∉ a.waiting

namespace Arranged

theorem mem_of_lineOf (h : Arranged f settled a) (hline : a.lineOf.get? id = some line) :
    id ∈ settled := by
  by_contra hid
  simp [(h.nowhere id hid).1] at hline

theorem onLine (h : Arranged f settled a) (hline : a.lineOf.get? id = some line) :
    a.OnLine id := by
  rcases h.standing id (h.mem_of_lineOf hline) with ho | hq | ⟨child, hs⟩
  · exact ho
  · simp [hq.1] at hline
  · simp [hs.1] at hline

theorem mem_of_waiting (h : Arranged f settled a) (hid : id ∈ a.waiting) : id ∈ settled := by
  by_contra hnot
  exact (h.nowhere id hnot).2.1 hid

theorem inQueue (h : Arranged f settled a) (hid : id ∈ a.waiting) : a.InQueue id := by
  rcases h.standing id (h.mem_of_waiting hid) with ho | hq | ⟨child, hs⟩
  · exact absurd hid ho.2.1
  · exact hq
  · exact absurd hid hs.2.1

/-- A shadow that is not there need not be lifted. -/
theorem removeShadow_eq (h : Arranged f settled a) (hnot : ¬a.Shadows child p) :
    a.removeShadow p child = a := by
  unfold removeShadow
  cases hp : a.shadows.get? p with
  | none => rfl
  | some children =>
    obtain ⟨other, rfl, -, -⟩ := h.shadow p children hp
    have hne : other ≠ child := fun heq => hnot ⟨_, hp, by simp [heq]⟩
    have hleft : [other].filter (· != child) = [other] := by simp [hne]
    simp [hleft, Table.insert_of_get? hp]

/-- The forest is consulted for the parents of shadowing children only. -/
theorem reforest (h : Arranged f settled a)
    (hparent : ∀ child p, a.Shadows child p → f.parentOf child = some p →
      f'.parentOf child = some p) : Arranged f' settled a where
  booked := h.booked
  standing := h.standing
  nowhere := h.nowhere
  shadow p children hp := by
    obtain ⟨child, rfl, hc, hw⟩ := h.shadow p children hp
    exact ⟨child, rfl, hparent child p ⟨_, hp, List.mem_singleton_self child⟩ hc, hw⟩

/-- An unsettled operation takes a free line. -/
theorem giveFree {rest : List LineId} (h : Arranged f settled a) (hfree : a.free = line :: rest)
    (hid : id ∉ settled) :
    Arranged f (insert id settled) (LineAssignment.give { a with free := rest } id line) := by
  obtain ⟨hline, hwait, hshadow⟩ := h.nowhere id hid
  have howner : a.ownerOf line = none :=
    ((h.booked.mem_free line).mp (hfree ▸ List.mem_cons_self)).2
  have howner' : LineAssignment.ownerOf { a with free := rest } line = none := howner
  have hlines : ∀ other, (LineAssignment.give { a with free := rest } id line).lineOf.get? other =
      if id = other then some line else a.lineOf.get? other := fun other => by
    rw [lineOf_give, howner']
    simp
  refine ⟨h.booked.giveFree hfree hline, fun other hother => ?_, fun other hother => ?_,
    h.shadow⟩
  · rcases Set.mem_insert_iff.mp hother with rfl | hother
    · exact Or.inl ⟨⟨line, by simp [hlines]⟩, hwait, hshadow⟩
    · have hne : id ≠ other := fun heq => hid (heq ▸ hother)
      simp only [OnLine, InQueue, InShadowOf, hlines, hne, if_false]
      exact h.standing other hother
  · obtain ⟨hne, hother⟩ := not_or.mp hother
    have hne' : id ≠ other := fun heq => hne heq.symm
    simp only [Nowhere, hlines, hne', if_false]
    exact h.nowhere other hother

/-- An unsettled operation joins the queue. -/
theorem queue (h : Arranged f settled a) (hid : id ∉ settled) (hfree : ∀ p, ¬a.Shadows id p) :
    Arranged f (insert id settled) { a with waiting := a.waiting ++ [id] } := by
  obtain ⟨hline, hwait, hshadow⟩ := h.nowhere id hid
  refine ⟨⟨h.booked.agree, h.booked.nodup, h.booked.mem_free⟩, fun other hother => ?_,
    fun other hother => ?_, fun p children hp => ?_⟩
  · rcases Set.mem_insert_iff.mp hother with rfl | hother
    · refine Or.inr (Or.inl ⟨hline, ?_, hshadow⟩)
      simp [List.count_append, List.count_eq_zero.mpr hwait]
    · have hne : other ≠ id := fun heq => hid (heq ▸ hother)
      have hne' : ¬id = other := fun heq => hne heq.symm
      simpa [OnLine, InQueue, InShadowOf, hne, hne', List.count_append, List.count_singleton]
        using h.standing other hother
  · obtain ⟨hne, hother⟩ := not_or.mp hother
    simpa [Nowhere, hne] using h.nowhere other hother
  · obtain ⟨child, rfl, hc, hw⟩ := h.shadow p children hp
    have hne : child ≠ id := fun heq => hfree p ⟨_, hp, by simp [heq]⟩
    exact ⟨child, rfl, hc, by simp [hw, hne]⟩

/-- An unsettled child takes over the line of its parent. -/
theorem takeOver (h : Arranged f settled a) (hid : id ∉ settled)
    (hparent : f.parentOf id = some p) (hline : a.lineOf.get? p = some line) :
    Arranged f (insert id settled)
      ((({ a with lineOf := a.lineOf.erase p } : LineAssignment).addShadow p id).give id line) := by
  obtain ⟨hidLine, hidWait, hidShadow⟩ := h.nowhere id hid
  obtain ⟨-, hpWait, hpShadow⟩ := h.onLine hline
  have hpid : p ≠ id := fun heq => hid (heq ▸ h.mem_of_lineOf hline)
  have howner : (a.addShadow p id).ownerOf line = some p := (h.booked.agree p line).mp hline
  have hbooked : (a.addShadow p id).Booked :=
    ⟨h.booked.agree, h.booked.nodup, h.booked.mem_free⟩
  rw [show ({ a with lineOf := a.lineOf.erase p } : LineAssignment).addShadow p id =
    { a.addShadow p id with lineOf := (a.addShadow p id).lineOf.erase p } from rfl,
    give_erase_owner howner]
  have hlines : ∀ other, ((a.addShadow p id).give id line).lineOf.get? other =
      if id = other then some line else if p = other then none else a.lineOf.get? other :=
    fun other => by
      rw [lineOf_give, howner]
      simp [addShadow]
  have hshadows : ∀ other, ((a.addShadow p id).give id line).shadows.get? other =
      if p = other then some [id] else a.shadows.get? other := fun other => by
    simp [give, addShadow, hpShadow, Table.get?_insert]
  have hwaits : ((a.addShadow p id).give id line).waiting = a.waiting := rfl
  refine ⟨hbooked.takeOver hline hidLine, fun other hother => ?_, fun other hother => ?_,
    fun q children hq => ?_⟩
  · rcases Set.mem_insert_iff.mp hother with rfl | hother
    · exact Or.inl ⟨⟨line, by simp [hlines]⟩, hidWait, by simp [hshadows, hpid, hidShadow]⟩
    · have hne : id ≠ other := fun heq => hid (heq ▸ hother)
      by_cases hp : p = other
      · subst hp
        exact Or.inr (Or.inr ⟨id, by simp [hlines, hne], hpWait, by simp [hshadows]⟩)
      · simp only [OnLine, InQueue, InShadowOf, hlines, hshadows, hwaits, hne, hp, if_false]
        exact h.standing other hother
  · obtain ⟨hne, hother⟩ := not_or.mp hother
    have hne' : id ≠ other := fun heq => hne heq.symm
    have hp : p ≠ other := fun heq => hother (heq ▸ h.mem_of_lineOf hline)
    simp only [Nowhere, hlines, hshadows, hwaits, hne', hp, if_false]
    exact h.nowhere other hother
  · rw [hshadows] at hq
    split at hq
    · rename_i heq
      cases hq
      exact ⟨id, rfl, heq ▸ hparent, hidWait⟩
    · exact h.shadow q children hq

/-- A waiting operation leaves the queue and is unsettled. -/
theorem unwait (h : Arranged f settled a) (hid : a.InQueue id) :
    Arranged f (settled \ {id}) { a with waiting := a.waiting.filter (· != id) } := by
  refine ⟨⟨h.booked.agree, h.booked.nodup, h.booked.mem_free⟩, fun other hother => ?_,
    fun other hother => ?_, fun p children hp => ?_⟩
  · obtain ⟨hother, hne⟩ := hother
    have hne' : other ≠ id := hne
    simpa [OnLine, InQueue, InShadowOf, hne', List.count_filter] using h.standing other hother
  · by_cases hne : other = id
    · subst hne
      exact ⟨hid.1, by simp, hid.2.2⟩
    · have := h.nowhere other fun hmem => hother ⟨hmem, hne⟩
      simpa [Nowhere, hne] using this
  · obtain ⟨child, rfl, hc, hw⟩ := h.shadow p children hp
    exact ⟨child, rfl, hc, by simp [hw]⟩

/-- A shadow is lifted, and the parent is unsettled. -/
theorem unshadow (h : Arranged f settled a) (hp : a.InShadowOf p child) :
    Arranged f (settled \ {p}) (a.removeShadow p child) := by
  obtain ⟨hline, hwait, hshadow⟩ := hp
  have heq : a.removeShadow p child = { a with shadows := a.shadows.erase p } := by
    simp [removeShadow, hshadow]
  rw [heq]
  refine ⟨⟨h.booked.agree, h.booked.nodup, h.booked.mem_free⟩, fun other hother => ?_,
    fun other hother => ?_, fun q children hq => ?_⟩
  · obtain ⟨hother, hne⟩ := hother
    have hne' : ¬p = other := fun h => hne h.symm
    simpa [OnLine, InQueue, InShadowOf, Table.get?_erase, hne'] using h.standing other hother
  · by_cases hne : p = other
    · subst hne
      exact ⟨hline, hwait, by simp [Table.get?_erase]⟩
    · have := h.nowhere other fun hmem => hother ⟨hmem, fun h => hne h.symm⟩
      simpa [Nowhere, Table.get?_erase, hne] using this
  · simp only [Table.get?_erase] at hq
    split at hq
    · cases hq
    · exact h.shadow q children hq

/-- A line is taken back from its owner, who is unsettled. -/
theorem release (h : Arranged f settled a) (hline : a.lineOf.get? id = some line) :
    Arranged f (settled \ {id}) (a.release id line) := by
  obtain ⟨-, hwait, hshadow⟩ := h.onLine hline
  have hlines : ∀ other, (a.release id line).lineOf.get? other =
      if id = other then none else a.lineOf.get? other := a.lineOf.get?_erase id
  have hsame : (a.release id line).waiting = a.waiting ∧
      (a.release id line).shadows = a.shadows := ⟨rfl, rfl⟩
  refine ⟨h.booked.release hline, fun other hother => ?_, fun other hother => ?_, h.shadow⟩
  · obtain ⟨hother, hne⟩ := hother
    have hne' : ¬id = other := fun h => hne h.symm
    simpa [OnLine, InQueue, InShadowOf, hlines, hsame, hne'] using h.standing other hother
  · by_cases hne : id = other
    · subst hne
      exact ⟨by simp [hlines], hwait, hshadow⟩
    · have := h.nowhere other fun hmem => hother ⟨hmem, fun h => hne h.symm⟩
      simpa [Nowhere, hlines, hsame, hne] using this

/-! ## Placing and serving -/

/-- An unsettled operation finds its place. If it shadows another it must not have to wait. -/
theorem placeUnder (h : Arranged f settled a) (hid : id ∉ settled)
    (hfree : a.free ≠ [] ∨ ∀ p, ¬a.Shadows id p) :
    Arranged f (insert id settled) (a.placeUnder id (f.parentOf id)) := by
  have htake : Arranged f (insert id settled) (a.takeFree id) := by
    unfold takeFree
    split
    · rename_i line rest hline
      exact h.giveFree hline hid
    · rename_i hnil
      exact h.queue hid (hfree.resolve_left (by simp [hnil]))
  unfold LineAssignment.placeUnder
  cases hparent : f.parentOf id with
  | none => exact htake
  | some p =>
    cases hline : a.lineOf.get? p with
    | none => simpa [hline] using htake
    | some line => simpa [hline] using h.takeOver hid hparent hline

theorem handOut {free : List LineId} {waiting : List OperationId}
    (h : Arranged f settled { a with free, waiting }) :
    Arranged f settled (a.handOut free waiting) := by
  induction free generalizing a waiting with
  | nil => simpa [LineAssignment.handOut] using h
  | cons line rest ih =>
    cases waiting with
    | nil => simpa [LineAssignment.handOut] using h
    | cons id others =>
      have hmem : id ∈ settled := h.mem_of_waiting List.mem_cons_self
      have hqueue := h.inQueue (show id ∈ id :: others from List.mem_cons_self)
      have hothers : (id :: others).filter (· != id) = others := by
        have hcount : others.count id = 0 := by simpa [InQueue] using hqueue.2.1
        have hnot := List.count_eq_zero.mp hcount
        simpa using fun other hother (heq : other = id) => hnot (heq ▸ hother)
      have hgiven := (h.unwait hqueue).giveFree (show line :: rest = line :: rest from rfl)
        fun hmem => hmem.2 rfl
      rw [Set.insert_sdiff_singleton, Set.insert_eq_of_mem hmem] at hgiven
      simp only [hothers] at hgiven
      exact ih hgiven

/-- Serving the queue settles nobody anew and unsettles nobody. -/
theorem fill (h : Arranged f settled a) : Arranged f settled a.fill := h.handOut

/-! ## Starting and completing -/

variable {parent : Option OperationId} {description status : String} {o : Operation}

/-- What runs not shadows nobody. -/
theorem not_shadows (h : Arranged f settled a) (hid : f.contains id = false) :
    ¬a.Shadows id p := by
  rintro ⟨children, hchildren, hmem⟩
  obtain ⟨child, rfl, hchild, -⟩ := h.shadow p children hchildren
  rw [List.mem_singleton.mp hmem, Forest.contains_of_parentOf hchild] at hid
  cases hid

theorem place (h : Arranged f {id | f.contains id} a)
    (hstart : f.start id parent description status = .ok (o, f')) :
    Arranged f' {id | f'.contains id} (a.place o) := by
  obtain ⟨hid, -, ho, -⟩ := Forest.start_eq_ok hstart
  have hkept : Arranged f' {id | f.contains id} a := h.reforest fun child p _ hchild => by
    have hne : id ≠ child := fun heq => by
      simp [heq, Forest.contains_of_parentOf hchild] at hid
    rw [Forest.parentOf_started hstart, if_neg hne, hchild]
  have hplaced := hkept.placeUnder (show id ∉ {id | f.contains id} by simpa using hid)
    (Or.inr fun p => h.not_shadows hid)
  have hsettled : insert id {id | f.contains id} = {id | f'.contains id} := by
    ext other
    simp [Forest.contains_started hstart]
  rw [hsettled, Forest.parentOf_started hstart, if_pos rfl] at hplaced
  rw [LineAssignment.place, ho]
  exact hplaced

/-- Without the completed operation the parents of all others are as before. -/
theorem reforest_completed (h : Arranged f settled a)
    (hcomplete : f.complete id = .ok (o, f')) (hnot : ∀ p, ¬a.Shadows id p) :
    Arranged f' settled a :=
  h.reforest fun child p hshadows hchild => by
    have hne : id ≠ child := fun heq => hnot p (heq ▸ hshadows)
    rw [Forest.parentOf_completed hcomplete, if_neg hne, hchild]

/-- The line of a completed operation that shadowed its parent goes back to the parent, which may
take over the line of its own parent in its stead. -/
theorem reclaim (h : Arranged f {id | f.contains id} a) (hne : p ≠ id)
    (hcomplete : f.complete id = .ok (o, f')) (hp : f.contains p = true)
    (hparent : f.parentOf id = some p) (hshadow : a.InShadowOf p id)
    (hline : a.lineOf.get? id = some line) :
    Arranged f' {id | f'.contains id}
      (((a.removeShadow p id).release id line).placeUnder p (f'.parentOf p)) := by
  have hlifted : (a.removeShadow p id).shadows = a.shadows.erase p := by
    simp [removeShadow, hshadow.2.2]
  have hline' : (a.removeShadow p id).lineOf.get? id = some line := by
    simpa [removeShadow, hshadow.2.2] using hline
  have hreleased := (h.unshadow hshadow).release hline'
  have hnot : ∀ q, ¬((a.removeShadow p id).release id line).Shadows id q := by
    rintro q ⟨children, hchildren, hmem⟩
    obtain ⟨child, rfl, hchild, -⟩ := hreleased.shadow q children hchildren
    have hq : q = p := by
      rw [← List.mem_singleton.mp hmem, hparent] at hchild
      exact (Option.some.inj hchild).symm
    simp [LineAssignment.release, hlifted, Table.get?_erase, hq] at hchildren
  have hunsettled : p ∉ ({id | f.contains id} \ {p}) \ {id} := fun hmem => hmem.1.2 rfl
  have hplaced := (hreleased.reforest_completed hcomplete hnot).placeUnder hunsettled
    (Or.inl (by simp [LineAssignment.release]))
  have hsettled : insert p (({id | f.contains id} \ {p}) \ {id}) = {id | f'.contains id} := by
    ext other
    simp only [Set.mem_insert_iff, Set.mem_sdiff, Set.mem_singleton_iff, Set.mem_ofPred_eq,
      Forest.contains_completed hcomplete]
    by_cases hother : other = p
    · simp [hother, hne, hp]
    · simp [hother, and_comm]
  exact hsettled ▸ hplaced

/-- An operation that may complete has no child that could shadow it. -/
theorem shadows_get?_of_complete (hf : f.Coherent) (h : Arranged f settled a)
    (hcomplete : f.complete id = .ok (o, f')) : a.shadows.get? id = none := by
  by_contra hne
  obtain ⟨children, hchildren⟩ := Option.ne_none_iff_exists'.mp hne
  obtain ⟨child, -, hchild, -⟩ := h.shadow id children hchildren
  exact hf.childless_of_complete hcomplete child hchild

/-- A completed operation that shadowed its parent passes its line on. -/
theorem retire_of_shadows (hf : f.Coherent) (h : Arranged f {id | f.contains id} a)
    (hcomplete : f.complete id = .ok (o, f')) (hshadows : a.Shadows id p) :
    Arranged f' {id | f'.contains id} (a.retire o f') := by
  obtain ⟨hid, -, -⟩ := Forest.complete_eq_ok hcomplete
  have hruns : f.contains id = true := Forest.contains_iff.mpr ⟨o, hid⟩
  have hparent : f.parentOf id = o.parent := by simp [Forest.parentOf, hid]
  have hunshadowed := h.shadows_get?_of_complete hf hcomplete
  obtain ⟨children, hchildren, hmem⟩ := hshadows
  obtain ⟨child, rfl, hchild, hwait⟩ := h.shadow p children hchildren
  obtain rfl := List.mem_singleton.mp hmem
  have hpruns := hf.parent_runs hchild
  have hp : a.InShadowOf p id := by
    rcases h.standing p hpruns with ho | hq | ⟨other, hs⟩
    · simp [ho.2.2] at hchildren
    · simp [hq.2.2] at hchildren
    · obtain rfl : id = other := by simpa [hs.2.2] using hchildren.symm
      exact hs
  have hne : p ≠ id := fun heq => by
    subst heq
    exact hf.childless_of_complete hcomplete p hchild
  rcases h.standing id hruns with ⟨⟨line, hline⟩, -⟩ | hq | ⟨other, hs⟩
  · have hback := h.reclaim hne hcomplete hpruns hchild hp hline
    have hline' : (a.removeShadow p id).lineOf.get? id = some line := by
      simpa [removeShadow, hp.2.2] using hline
    unfold LineAssignment.retire
    simp only [hf.own_id hid, Table.erase_of_get?_none hunshadowed, ← hparent, hchild,
      Option.filter, shadowedBy_iff.mpr ⟨_, hchildren, hmem⟩, if_true, hline']
    exact hback.fill
  · exact absurd (List.count_pos_iff.mp (hq.2.1 ▸ Nat.one_pos)) hwait
  · simp [hs.2.2] at hunshadowed

/-- A completed operation that shadowed no one gives back its line or its place in the queue. -/
theorem retire_of_not_shadows (hf : f.Coherent) (h : Arranged f {id | f.contains id} a)
    (hcomplete : f.complete id = .ok (o, f')) (hnot : ∀ p, ¬a.Shadows id p) :
    Arranged f' {id | f'.contains id} (a.retire o f') := by
  obtain ⟨hid, -, -⟩ := Forest.complete_eq_ok hcomplete
  have hruns : f.contains id = true := Forest.contains_iff.mpr ⟨o, hid⟩
  have hunshadowed := h.shadows_get?_of_complete hf hcomplete
  have hsettled : {id | f.contains id} \ {id} = {id | f'.contains id} := by
    ext other
    simp [Forest.contains_completed hcomplete, and_comm]
  have hrest : a.retire o f' =
      (a.lineOf.get? id).elim { a with waiting := a.waiting.filter (· != id) } fun line =>
        (a.release id line).fill := by
    unfold LineAssignment.retire
    simp only [hf.own_id hid, Table.erase_of_get?_none hunshadowed]
    cases o.parent with
    | none => cases a.lineOf.get? id <;> rfl
    | some p =>
      have hfalse : a.shadowedBy p id = false := by
        simpa using fun htrue => hnot p (shadowedBy_iff.mp htrue)
      simp only [Option.filter, hfalse, h.removeShadow_eq (hnot p)]
      cases a.lineOf.get? id <;> rfl
  rw [hrest, ← hsettled]
  rcases h.standing id hruns with ⟨⟨line, hline⟩, -⟩ | hq | ⟨other, hs⟩
  · simp only [hline, Option.elim_some]
    exact ((h.release hline).reforest_completed hcomplete hnot).fill
  · simp only [hq.1, Option.elim_none]
    exact (h.unwait hq).reforest_completed hcomplete hnot
  · simp [hs.2.2] at hunshadowed

theorem retire (hf : f.Coherent) (h : Arranged f {id | f.contains id} a)
    (hcomplete : f.complete id = .ok (o, f')) :
    Arranged f' {id | f'.contains id} (a.retire o f') := by
  by_cases hshadows : ∃ p, a.Shadows id p
  · obtain ⟨p, hp⟩ := hshadows
    exact h.retire_of_shadows hf hcomplete hp
  · exact h.retire_of_not_shadows hf hcomplete fun p hp => hshadows ⟨p, hp⟩

end Arranged

end ProgressDisplay.LineAssignment
