import ProgressDisplay.Proofs.Operations.FirstServed

/-!
# What a completion does to the lines

An operation that completes leaves the queue, or it leaves a line. Its line is passed on to the
operation that has waited longest, unless the completed operation shadowed its parent. Then the
parent holds the line again, or it takes over the line of its own parent and the line is passed on
after all.

* `exists_departs`, `Departs.unique`: a completion is one of these departures and no other.
* `Departs.retire_eq`: what is left after each of them, exactly.
* `run_departure`: all of this after every run of events.
-/

namespace ProgressDisplay

namespace LineAssignment

variable {f f' : Forest} {settled : Set OperationId} {a b : LineAssignment}
  {id p g other : OperationId} {line upper : LineId} {o : Operation}

/-! ## The departures -/

/-- The ways for a completed operation to go. -/
inductive Departure where
  | fromQueue
  | fromLine (line : LineId)
  /-- The parent holds the line again. -/
  | toParent (line : LineId) (parent : OperationId)
  /-- The parent takes over the line of its own parent. -/
  | underGrandparent (line : LineId) (parent : OperationId) (upper : LineId)
      (grandparent : OperationId)

/-- When an operation goes which way. -/
inductive Departs (f : Forest) (a : LineAssignment) (id : OperationId) : Departure → Prop where
  | fromQueue (hwaits : id ∈ a.waiting) : Departs f a id .fromQueue
  | fromLine {line : LineId} (hline : a.lineOf.get? id = some line)
      (hunshadowed : ∀ p, f.parentOf id = some p → ¬a.Shadows id p) :
      Departs f a id (.fromLine line)
  | toParent {line : LineId} {p : OperationId} (hline : a.lineOf.get? id = some line)
      (hparent : f.parentOf id = some p) (hshadows : a.Shadows id p)
      (habove : ∀ g, f.parentOf p = some g → a.lineOf.get? g = none) :
      Departs f a id (.toParent line p)
  | underGrandparent {line upper : LineId} {p g : OperationId}
      (hline : a.lineOf.get? id = some line) (hparent : f.parentOf id = some p)
      (hshadows : a.Shadows id p) (habove : f.parentOf p = some g)
      (hupper : a.lineOf.get? g = some upper) :
      Departs f a id (.underGrandparent line p upper g)

/-- Gives a line that nobody holds to the operation that has waited longest. Where nobody waits the
line becomes free. -/
def passOn (a : LineAssignment) (line : LineId) : LineAssignment :=
  match a.waiting with
  | [] => { a with free := line :: a.free, owners := a.owners.set line none }
  | next :: rest =>
    { a with
      lineOf := a.lineOf.insert next line
      owners := a.owners.set line (some next)
      waiting := rest }

/-- What a departure leaves. -/
def after (a : LineAssignment) (id : OperationId) : Departure → LineAssignment
  | .fromQueue => { a with waiting := a.waiting.erase id }
  | .fromLine line => passOn { a with lineOf := a.lineOf.erase id } line
  | .toParent line p =>
    { a with
      lineOf := (a.lineOf.erase id).insert p line
      owners := a.owners.set line (some p)
      shadows := a.shadows.erase p }
  | .underGrandparent line p upper g =>
    passOn
      { a with
        lineOf := ((a.lineOf.erase id).erase g).insert p upper
        owners := a.owners.set upper (some p)
        shadows := (a.shadows.erase p).insert g [p] } line

/-- The operations that a departure concerns. -/
def concerned (a : LineAssignment) (id : OperationId) : Departure → List OperationId
  | .fromQueue => [id]
  | .fromLine _ => id :: a.waiting.take 1
  | .toParent _ p => [id, p]
  | .underGrandparent _ p _ g => id :: p :: g :: a.waiting.take 1

/-- All others keep their lines, their shadows and their order in the queue. -/
structure Undisturbed (a b : LineAssignment) (concerned : List OperationId) : Prop where
  lineOf : ∀ other ∉ concerned, b.lineOf.get? other = a.lineOf.get? other
  shadows : ∀ other ∉ concerned, b.shadows.get? other = a.shadows.get? other
  waiting : b.waiting.filter (· ∉ concerned) = a.waiting.filter (· ∉ concerned)

/-! ## A completion is one departure -/

theorem exists_departs (h : Arranged f settled a) (hid : id ∈ settled)
    (hchildless : ∀ child, f.parentOf child ≠ some id) : ∃ d, a.Departs f id d := by
  rcases h.standing id hid with ⟨⟨line, hline⟩, -, -⟩ | hq | ⟨child, hs⟩
  · by_cases hshadows : ∃ p, f.parentOf id = some p ∧ a.Shadows id p
    · obtain ⟨p, hparent, hp⟩ := hshadows
      by_cases habove : ∃ g upper, f.parentOf p = some g ∧ a.lineOf.get? g = some upper
      · obtain ⟨g, upper, hg, hupper⟩ := habove
        exact ⟨_, .underGrandparent hline hparent hp hg hupper⟩
      · refine ⟨_, .toParent hline hparent hp fun g hg => ?_⟩
        by_contra hheld
        obtain ⟨upper, hupper⟩ := Option.ne_none_iff_exists'.mp hheld
        exact habove ⟨g, upper, hg, hupper⟩
    · exact ⟨_, .fromLine hline fun p hparent hp => hshadows ⟨p, hparent, hp⟩⟩
  · exact ⟨_, .fromQueue (List.count_pos_iff.mp (hq.2.1 ▸ Nat.one_pos))⟩
  · obtain ⟨only, -, hparent, -⟩ := h.shadow id _ hs.2.2
    exact absurd hparent (hchildless only)

/-- Who waits holds no line, and lines and parents are what the tables say. -/
theorem Departs.unique (h : Arranged f settled a) {d d' : Departure} (hd : a.Departs f id d)
    (hd' : a.Departs f id d') : d = d' := by
  have hapart : id ∈ a.waiting → a.lineOf.get? id = none := fun hwaits => (h.inQueue hwaits).1
  cases hd <;> cases hd'
  all_goals grind

/-! ## What is passed on -/

/-- Where no line is free or nobody waits, there is nothing to serve. -/
theorem fill_of_busy (h : a.Busy) : a.fill = a := by
  unfold fill
  cases hwaiting : a.waiting with
  | nil =>
    have hdone : a.handOut a.free [] = { a with waiting := [] } := by
      cases a.free <;> rfl
    rw [hdone, ← hwaiting]
  | cons next rest =>
    have hfree : a.free = [] := h (by simp [hwaiting])
    rw [hfree, ← hwaiting]
    show { a with free := [] } = a
    rw [← hfree]

theorem give_of_unowned (h : a.ownerOf line = none) :
    a.give id line =
      { a with owners := a.owners.set line (some id), lineOf := a.lineOf.insert id line } := by
  simp only [give, h]

theorem ownerOf_cleared (h : a.owners = b.owners.set line none) : a.ownerOf line = none := by
  rw [ownerOf, h, List.getElem?_set]
  split
  · split <;> rfl
  · contradiction

theorem handOut_nil (waiting : List OperationId) :
    a.handOut [] waiting = { a with free := [], waiting } := by
  simp only [handOut]

/-- Of a busy assignment a line that came free is the only one to be handed out. -/
theorem fill_of_freed (h : a.Busy) :
    fill { a with free := line :: a.free, owners := a.owners.set line none } = a.passOn line := by
  unfold passOn
  cases hwaiting : a.waiting with
  | nil => simp only [fill, handOut]
  | cons next rest =>
    have hfree : a.free = [] := h (by simp [hwaiting])
    rw [fill, handOut, give_of_unowned (ownerOf_cleared rfl), hfree, handOut_nil, List.set_set]

/-! ## What a departure leaves -/

namespace Arranged

theorem of_shadows (h : Arranged f settled a) (hshadows : a.Shadows id p) :
    a.shadows.get? p = some [id] ∧ f.parentOf id = some p ∧ id ∉ a.waiting := by
  obtain ⟨children, hchildren, hmem⟩ := hshadows
  obtain ⟨only, rfl, hparent, hwait⟩ := h.shadow p children hchildren
  obtain rfl := List.mem_singleton.mp hmem
  exact ⟨hchildren, hparent, hwait⟩

theorem nodup_waiting (h : Arranged f settled a) : a.waiting.Nodup :=
  List.nodup_iff_count_eq_one.mpr fun _ hid => (h.inQueue hid).2.1

end Arranged

/-- A completed operation that shadows nobody has no shadows to lift. -/
theorem liftShadows_of_not_shadows (h : Arranged f settled a) (hbare : a.shadows.get? o.id = none)
    (hnot : ∀ p, ¬a.Shadows o.id p) : a.liftShadows o = a ∧ a.shadowedParent o = none := by
  unfold liftShadows shadowedParent
  rw [Table.erase_of_get?_none hbare]
  cases o.parent with
  | none => exact ⟨rfl, rfl⟩
  | some p =>
    have hfalse : a.shadowedBy p o.id = false := by
      simpa using fun htrue => hnot p (shadowedBy_iff.mp htrue)
    exact ⟨h.removeShadow_eq (hnot p), by simp [hfalse]⟩

theorem liftShadows_of_shadows (h : Arranged f settled a) (hbare : a.shadows.get? o.id = none)
    (hparent : o.parent = some p) (hshadows : a.Shadows o.id p) :
    a.liftShadows o = { a with shadows := a.shadows.erase p } ∧ a.shadowedParent o = some p := by
  unfold liftShadows shadowedParent
  rw [Table.erase_of_get?_none hbare, hparent]
  refine ⟨by simp [removeShadow, (h.of_shadows hshadows).1], ?_⟩
  simp [shadowedBy_iff.mpr hshadows]

/-- Where the operation above holds no line, the line that came free is taken. -/
theorem placeUnder_of_freed {parent : Option OperationId} {rest : List LineId}
    (habove : ∀ g, parent = some g → a.lineOf.get? g = none) (hfree : a.free = line :: rest)
    (howner : a.ownerOf line = none) :
    a.placeUnder p parent =
      { a with
        free := rest
        owners := a.owners.set line (some p)
        lineOf := a.lineOf.insert p line } := by
  have htaken : a.placeUnder p parent = a.takeFree p := by
    unfold placeUnder
    cases parent with
    | none => rfl
    | some g => simp [habove g rfl]
  have howner' : ownerOf { a with free := rest } line = none := howner
  rw [htaken, takeFree, hfree]
  simp only [give_of_unowned howner']

theorem placeUnder_of_held (hupper : a.lineOf.get? g = some upper)
    (howner : a.ownerOf upper = some g) (hbare : a.shadows.get? g = none) :
    a.placeUnder p (some g) =
      { a with
        owners := a.owners.set upper (some p)
        lineOf := (a.lineOf.erase g).insert p upper
        shadows := a.shadows.insert g [p] } := by
  have howner' : ownerOf { a with shadows := a.shadows.insert g [p] } upper = some g := howner
  simp only [placeUnder, Option.bind_some, hupper, Option.map_some, addShadow, hbare,
    Option.getD_none, List.contains_nil, Bool.false_eq_true, if_false, List.nil_append]
  rw [give_erase_owner howner']
  simp only [give, howner']

/-- The parent takes the line that came free, and nobody is served. -/
theorem fill_reclaimed (hbusy : a.Busy) {parent : Option OperationId}
    (habove : ∀ g, parent = some g → a.lineOf.get? g = none) :
    ((release { a with shadows := a.shadows.erase p } id line).placeUnder p parent).fill =
      a.after id (.toParent line p) := by
  have habove' : ∀ g, parent = some g →
      (release { a with shadows := a.shadows.erase p } id line).lineOf.get? g = none := by
    intro g hg
    show (a.lineOf.erase id).get? g = none
    rw [Table.get?_erase, habove g hg, ite_self]
  rw [placeUnder_of_freed habove' rfl (ownerOf_cleared rfl)]
  simp only [release, List.set_set]
  exact fill_of_busy hbusy

/-- The parent takes another line, and the one that came free is passed on. -/
theorem fill_reclaimed_of_held (h : Arranged f settled a) (hbusy : a.Busy)
    (hline : a.lineOf.get? id = some line) (hupper : a.lineOf.get? g = some upper)
    (hne : id ≠ g) :
    ((release { a with shadows := a.shadows.erase p } id line).placeUnder p (some g)).fill =
      a.after id (.underGrandparent line p upper g) := by
  have hapart : line ≠ upper := fun heq => hne (h.booked.eq_of_lineOf hline (heq ▸ hupper))
  have hupper' : (release { a with shadows := a.shadows.erase p } id line).lineOf.get? g =
      some upper := by
    show (a.lineOf.erase id).get? g = some upper
    rw [Table.get?_erase, if_neg hne, hupper]
  have howner : (release { a with shadows := a.shadows.erase p } id line).ownerOf upper =
      some g := by
    have hkept := join_getElem?_set (lt_of_ownerOf ((h.booked.agree _ _).mp hline)) none upper
    rw [if_neg hapart] at hkept
    exact hkept.trans ((h.booked.agree g upper).mp hupper)
  have hbare : (a.shadows.erase p).get? g = none := by
    rw [Table.get?_erase, (h.onLine hupper).2.2, ite_self]
  rw [placeUnder_of_held hupper' howner hbare]
  simp only [release, List.set_comm _ _ hapart]
  have hbusy' : Busy { a with
    lineOf := ((a.lineOf.erase id).erase g).insert p upper
    owners := a.owners.set upper (some p)
    shadows := (a.shadows.erase p).insert g [p] } := hbusy
  exact fill_of_freed hbusy'

/-- A completion makes the change of the departure that it is, and no other. -/
theorem Departs.retire_eq (hf : f.Coherent) (h : Arranged f {id | f.contains id} a)
    (hbusy : a.Busy) (hcomplete : f.complete id = .ok (o, f')) {d : Departure}
    (hd : a.Departs f id d) : a.retire o f' = a.after id d := by
  have hid := (Forest.complete_eq_ok hcomplete).1
  obtain rfl : o.id = id := hf.own_id hid
  have hbare := h.shadows_get?_of_complete hf hcomplete
  have hchildless := hf.childless_of_complete hcomplete
  have hparents : f.parentOf o.id = o.parent := by simp [Forest.parentOf, hid]
  have hparents' : ∀ p, f.parentOf o.id = some p → f'.parentOf p = f.parentOf p := by
    intro p hparent
    have hne : o.id ≠ p := fun heq => hchildless o.id (heq ▸ hparent)
    rw [Forest.parentOf_completed hcomplete, if_neg hne]
  rw [LineAssignment.retire_eq]
  cases hd with
  | fromQueue hwaits =>
    have hnot : ∀ p, ¬a.Shadows o.id p := fun p hp => (h.of_shadows hp).2.2 hwaits
    rw [(h.inQueue hwaits).1, (liftShadows_of_not_shadows h hbare hnot).1]
    simp only [after, h.nodup_waiting.erase_eq_filter]
  | @fromLine line hline hunshadowed =>
    have hnot : ∀ p, ¬a.Shadows o.id p := fun p hp => hunshadowed p (h.of_shadows hp).2.1 hp
    obtain ⟨hlifted, hparent⟩ := liftShadows_of_not_shadows h hbare hnot
    rw [hline, hlifted, hparent]
    have hbusy' : Busy { a with lineOf := a.lineOf.erase o.id } := hbusy
    exact fill_of_freed hbusy'
  | @toParent line p hline hparent hshadows habove =>
    obtain ⟨hlifted, hshadowed⟩ := liftShadows_of_shadows h hbare (hparents ▸ hparent) hshadows
    rw [hline, hlifted, hshadowed]
    simp only [restore, hparents' p hparent]
    exact fill_reclaimed hbusy habove
  | @underGrandparent line upper p g hline hparent hshadows habove hupper =>
    obtain ⟨hlifted, hshadowed⟩ := liftShadows_of_shadows h hbare (hparents ▸ hparent) hshadows
    rw [hline, hlifted, hshadowed]
    simp only [restore, hparents' p hparent, habove]
    exact fill_reclaimed_of_held h hbusy hline hupper fun heq => hchildless p (heq ▸ habove)

/-! ## Whom a departure does not concern -/

theorem shadows_passOn : (a.passOn line).shadows = a.shadows := by
  unfold passOn
  split <;> rfl

theorem waiting_passOn : (a.passOn line).waiting = a.waiting.drop 1 := by
  unfold passOn
  split <;> simp_all

theorem lineOf_passOn (hother : other ∉ a.waiting.take 1) :
    (a.passOn line).lineOf.get? other = a.lineOf.get? other := by
  unfold passOn
  split
  · rfl
  · rename_i next rest hwaiting
    have hne : next ≠ other := fun heq => hother (by simp [hwaiting, heq])
    rw [Table.get?_insert, if_neg hne]

theorem filter_drop_one {concerned : List OperationId} (hserved : a.waiting.take 1 ⊆ concerned) :
    (a.waiting.drop 1).filter (· ∉ concerned) = a.waiting.filter (· ∉ concerned) := by
  have hnone : (a.waiting.take 1).filter (· ∉ concerned) = [] :=
    List.filter_eq_nil_iff.mpr fun next hnext => by simpa using hserved hnext
  conv_rhs => rw [← List.take_append_drop 1 a.waiting, List.filter_append, hnone]
  rfl

theorem undisturbed_after (h : Arranged f settled a) (id : OperationId) (d : Departure) :
    a.Undisturbed (a.after id d) (a.concerned id d) := by
  cases d with
  | fromQueue =>
    refine ⟨fun _ _ => rfl, fun _ _ => rfl, ?_⟩
    simp only [after, concerned, h.nodup_waiting.erase_eq_filter, List.filter_filter]
    refine List.filter_congr fun other _ => ?_
    by_cases heq : other = id <;> simp [heq]
  | fromLine line =>
    refine ⟨fun other hother => ?_, fun other _ => ?_, ?_⟩
    · obtain ⟨hid, hwaits⟩ : id ≠ other ∧ other ∉ a.waiting.take 1 := by
        simpa [concerned, eq_comm] using hother
      rw [after, lineOf_passOn, Table.get?_erase, if_neg hid]
      exact hwaits
    · rw [after, shadows_passOn]
    · rw [after, waiting_passOn]
      exact filter_drop_one (List.subset_cons_self _ _)
  | toParent line p =>
    refine ⟨fun other hother => ?_, fun other hother => ?_, rfl⟩
    · obtain ⟨hid, hp⟩ : id ≠ other ∧ p ≠ other := by simpa [concerned, eq_comm] using hother
      simp [after, Table.get?_insert, Table.get?_erase, hid, hp]
    · obtain ⟨-, hp⟩ : id ≠ other ∧ p ≠ other := by simpa [concerned, eq_comm] using hother
      simp [after, Table.get?_erase, hp]
  | underGrandparent line p upper g =>
    have hapart : ∀ other ∉ a.concerned id (.underGrandparent line p upper g),
        id ≠ other ∧ p ≠ other ∧ g ≠ other ∧ other ∉ a.waiting.take 1 := fun other hother => by
      simpa [concerned, eq_comm] using hother
    refine ⟨fun other hother => ?_, fun other hother => ?_, ?_⟩
    · obtain ⟨hid, hp, hg, hwaits⟩ := hapart other hother
      rw [after, lineOf_passOn]
      · simp [Table.get?_insert, Table.get?_erase, hid, hp, hg]
      · exact hwaits
    · obtain ⟨-, hp, hg, -⟩ := hapart other hother
      rw [after, shadows_passOn]
      simp [Table.get?_insert, Table.get?_erase, hp, hg]
    · rw [after, waiting_passOn]
      exact filter_drop_one fun next hnext => by simp [concerned, hnext]

/-! ## The parent comes first -/

/-- Where a line is free, an operation is placed on a line at once. -/
theorem placeUnder_of_free (hfree : a.free ≠ []) (id : OperationId) (parent : Option OperationId) :
    (a.placeUnder id parent).waiting = a.waiting ∧
      ∃ line, (a.placeUnder id parent).lineOf.get? id = some line := by
  refine ⟨waiting_placeUnder_of_free hfree, ?_⟩
  unfold placeUnder
  split
  · exact ⟨_, by rw [lineOf_give, if_pos rfl]⟩
  · unfold takeFree
    split
    · exact ⟨_, by rw [lineOf_give, if_pos rfl]⟩
    · contradiction

/-- When a shadow is lifted, the parent finds a line while the queue is as it was. Only then the
queue is served. -/
theorem Departs.exists_restored (hf : f.Coherent) (h : Arranged f {id | f.contains id} a)
    (hcomplete : f.complete id = .ok (o, f')) {d : Departure} (hd : a.Departs f id d)
    (hshadows : a.Shadows id p) :
    ∃ (restored : LineAssignment) (line : LineId), restored.waiting = a.waiting ∧
      restored.lineOf.get? p = some line ∧ a.retire o f' = restored.fill := by
  have hid := (Forest.complete_eq_ok hcomplete).1
  obtain rfl : o.id = id := hf.own_id hid
  obtain ⟨-, hparent, hwait⟩ := h.of_shadows hshadows
  obtain ⟨line, hline⟩ : ∃ line, a.lineOf.get? o.id = some line := by
    cases hd with
    | fromQueue hwaits => exact absurd hwaits hwait
    | fromLine hline | toParent hline | underGrandparent hline => exact ⟨_, hline⟩
  have hparent' : o.parent = some p := by simpa [Forest.parentOf, hid] using hparent
  obtain ⟨hlifted, hshadowed⟩ := liftShadows_of_shadows h
    (h.shadows_get?_of_complete hf hcomplete) hparent' hshadows
  have hfree : (release { a with shadows := a.shadows.erase p } o.id line).free ≠ [] :=
    List.cons_ne_nil line a.free
  obtain ⟨hwaiting, regained, hregained⟩ := placeUnder_of_free hfree p (f'.parentOf p)
  refine ⟨_, regained, hwaiting, hregained, ?_⟩
  rw [LineAssignment.retire_eq, hline, hlifted, hshadowed]
  rfl

/-- What was shadowed holds a line in the end. -/
theorem Departs.exists_line_after (h : Arranged f settled a) {d : Departure}
    (hd : a.Departs f id d) (hshadows : a.Shadows id p) :
    ∃ line, (a.after id d).lineOf.get? p = some line := by
  obtain ⟨hshadow, hparent, hwait⟩ := h.of_shadows hshadows
  cases hd with
  | fromQueue hwaits => exact absurd hwaits hwait
  | fromLine hline hunshadowed => exact absurd hshadows (hunshadowed p hparent)
  | @toParent line p' hline hparent' =>
    obtain rfl : p = p' := Option.some.inj (hparent.symm.trans hparent')
    exact ⟨line, by rw [after, Table.get?_insert, if_pos rfl]⟩
  | @underGrandparent line upper p' g hline hparent' =>
    obtain rfl : p = p' := Option.some.inj (hparent.symm.trans hparent')
    refine ⟨upper, ?_⟩
    rw [after, lineOf_passOn, Table.get?_insert, if_pos rfl]
    intro hserved
    have hbare := (h.inQueue (List.mem_of_mem_take hserved)).2.2
    rw [hshadow] at hbare
    cases hbare

end LineAssignment

namespace Forest

variable {f : Forest} {id : OperationId}

theorem Coherent.exists_complete (hf : f.Coherent) (hruns : f.contains id = true)
    (hchildless : f.childCount id = 0) : ∃ o f', f.complete id = .ok (o, f') := by
  obtain ⟨o, hid⟩ := contains_iff.mp hruns
  cases hcomplete : f.complete id with
  | ok r => exact ⟨r.1, r.2, rfl⟩
  | error violation =>
    rcases complete_eq_error_iff.mp hcomplete with ⟨hnone, -⟩ | ⟨o', ho', hchildren, -⟩
    · rw [hid] at hnone
      cases hnone
    · rw [hf.children ho', hchildless] at hchildren
      exact absurd hchildren (Nat.lt_irrefl 0)

end Forest

namespace Tracker

open LineAssignment

/-- After every run of events, a running operation without running children may complete. Its
completion is exactly one of the departures, makes exactly the change of that departure, and does
not disturb the operations that it does not concern. A parent that was shadowed is on a line again,
and got it before the queue was served. -/
theorem run_departure (count : Nat) (events : List Event) (id : OperationId)
    (hruns : (run events (ofLines count)).forest.contains id = true)
    (hchildless : (run events (ofLines count)).forest.childCount id = 0) :
    let t := run events (ofLines count)
    ∃ t', t.apply (.complete id) = .ok t' ∧
      (∃! d, t.lines.Departs t.forest id d) ∧
      (∀ d, t.lines.Departs t.forest id d →
        t'.lines = t.lines.after id d ∧ t.lines.Undisturbed t'.lines (t.lines.concerned id d)) ∧
      ∀ p, t.lines.Shadows id p →
        (∃ line, t'.lines.lineOf.get? p = some line) ∧
        ∃ (restored : LineAssignment) (line : LineId), restored.waiting = t.lines.waiting ∧
          restored.lineOf.get? p = some line ∧ t'.lines = restored.fill := by
  intro t
  obtain ⟨hf, ha⟩ : t.Sound := (sound_ofLines count).run events
  have hbusy : t.lines.Busy := busy_run count events
  obtain ⟨o, f', hcomplete⟩ := hf.exists_complete hruns hchildless
  obtain ⟨d, hd⟩ := exists_departs ha hruns fun child => hf.childless_of_complete hcomplete child
  have hunique : ∀ d', t.lines.Departs t.forest id d' → d' = d := fun d' hd' => hd'.unique ha hd
  have heq : t.lines.retire o f' = t.lines.after id d := hd.retire_eq hf ha hbusy hcomplete
  refine
    ⟨{ forest := f', lines := t.lines.retire o f', headline := t.headline.after (.complete id) },
      ?_, ⟨d, hd, hunique⟩, fun d' hd' => ?_, fun p hp => ⟨?_, ?_⟩⟩
  · simp only [apply, hcomplete, Except.map]
  · obtain rfl := hunique d' hd'
    exact ⟨heq, heq ▸ undisturbed_after ha id d'⟩
  · show ∃ line, (t.lines.retire o f').lineOf.get? p = some line
    rw [heq]
    exact hd.exists_line_after ha hp
  · exact hd.exists_restored hf ha hcomplete hp

/-- The operations 4 and 3 came to the two lines out of the queue, and 5 took over the line of its
parent 4. When 5 completes, 4 takes over the line of its own parent 3, and 6 is served. -/
theorem run_departure_of_nested :
    let t := run [.start 1 none "" "", .start 2 none "" "", .start 3 none "" "",
      .start 4 (some 3) "" "", .complete 1, .complete 2, .start 5 (some 4) "" "",
      .start 6 none "" ""] (ofLines 2)
    t.forest.contains 5 = true ∧ t.forest.childCount 5 = 0 ∧
      ∃ t', t.apply (.complete 5) = .ok t' ∧
        t'.lines = t.lines.after 5 (.underGrandparent 1 4 0 3) ∧
        t'.lines.lineOf.get? 6 = some 1 ∧ ∃ line, t'.lines.lineOf.get? 4 = some line := by
  intro t
  have hruns : t.forest.contains 5 = true := by decide
  have hchildless : t.forest.childCount 5 = 0 := by decide
  have hshadows : t.lines.Shadows 5 4 := ⟨[5], by decide, by decide⟩
  have hdeparts : t.lines.Departs t.forest 5 (.underGrandparent 1 4 0 3) :=
    .underGrandparent (by decide) (by decide) hshadows (by decide) (by decide)
  obtain ⟨t', happlied, -, hafter, hrestored⟩ := run_departure 2 _ 5 hruns hchildless
  have hlines := (hafter _ hdeparts).1
  exact ⟨hruns, hchildless, t', happlied, hlines, by rw [hlines]; decide, (hrestored 4 hshadows).1⟩

end Tracker

end ProgressDisplay
