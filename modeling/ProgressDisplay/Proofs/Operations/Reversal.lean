import ProgressDisplay.Proofs.Operations.Ancestry
import ProgressDisplay.Proofs.Operations.Departures

/-!
# A start that is taken back at once

An operation that starts comes to a line or into the queue, and each way to come is undone by one of
the ways to go. So an operation that starts and completes with nothing in between leaves no trace,
but for one case: where its parent and the parent of that held lines, the parent does not get its
line back but takes over the one above it.

* `Forest.Coherent.reverse`: the forest is as it was before the start.
* `reverse_overtaken`, `reverse_served`, `reverse_queued`: the way back from each place.
* `run_reversal`: all of this after every run of events.
-/

namespace ProgressDisplay

namespace Table

variable {α : Type} {t : Table α} {id other : Nat} {value : α}

theorem erase_insert_of_none (h : t.get? id = none) : (t.insert id value).erase id = t := by
  apply ext_get?
  intro other
  rw [get?_erase, get?_insert]
  split
  · rename_i heq
    rw [← heq, h]
  · rfl

theorem insert_erase_of_get? (h : t.get? id = some value) : (t.erase id).insert id value = t := by
  apply ext_get?
  intro other
  rw [get?_insert, get?_erase]
  split
  · rename_i heq
    rw [← heq, h]
  · rfl

/-- What is stored anew need not be taken out before. -/
theorem insert_erase_erase : ((t.erase id).erase other).insert id value =
    (t.erase other).insert id value := by
  apply ext_get?
  intro key
  simp only [get?_insert, get?_erase]
  split
  · rfl
  · rfl

end Table

namespace Forest

variable {f f' : Forest} {id : OperationId} {parent : Option OperationId}
  {description status : String} {o : Operation}

theorem ext_get? (h : ∀ id, f.get? id = f'.get? id) : f = f' :=
  congrArg Forest.mk (Table.ext_get? h)

theorem exists_start (hid : f.contains id = false)
    (hparent : ∀ p, parent = some p → f.contains p = true) (description status : String) :
    ∃ o f', f.start id parent description status = .ok (o, f') := by
  cases hstart : f.start id parent description status with
  | ok r => exact ⟨r.1, r.2, rfl⟩
  | error violation =>
    rcases start_eq_error_iff.mp hstart with ⟨hruns, -⟩ | ⟨-, p, hp, hnot, -⟩
    · rw [hid] at hruns
      cases hruns
    · rw [hparent p hp] at hnot
      cases hnot

/-- What starts may complete, and then the forest is as it was before. -/
theorem Coherent.reverse (hf : f.Coherent)
    (hstart : f.start id parent description status = .ok (o, f')) :
    f'.complete id = .ok (o, f) := by
  obtain ⟨hid, hparent, ho, -⟩ := start_eq_ok hstart
  have hruns : f'.contains id = true := (contains_started hstart id).mpr (Or.inl rfl)
  have hother : parent ≠ some id := fun hp => by simp [hparent id hp] at hid
  have hchildless : f'.childCount id = 0 := by
    rw [childCount_started hstart, hf.childless hid, if_neg hother]
  obtain ⟨o', f'', hcomplete⟩ := (hf.start hstart).exists_complete hruns hchildless
  obtain rfl : o' = o := by
    have hget := (complete_eq_ok hcomplete).1
    rw [get?_started hstart, if_pos rfl] at hget
    exact (Option.some.inj hget).symm
  have hnone : f.get? id = none := by simpa [contains] using hid
  have hback : f'' = f := by
    apply ext_get?
    intro other
    rw [get?_completed hcomplete, get?_started hstart]
    split
    · rename_i heq
      rw [← heq, hnone]
    · rw [show o'.parent = parent by rw [ho]]
      split
      · cases f.get? other <;> rfl
      · rfl
  rw [hcomplete, hback]

end Forest

namespace LineAssignment

variable {f f' : Forest} {settled : Set OperationId} {a : LineAssignment}
  {id p g : OperationId} {line upper : LineId} {rest : List LineId} {o : Operation}
  {parent : Option OperationId} {description status : String}

/-! ## Ways to come -/

/-- A child takes over the line of its parent. -/
def overtaken (a : LineAssignment) (id : OperationId) (line : LineId) (p : OperationId) :
    LineAssignment :=
  { a with
    owners := a.owners.set line (some id)
    lineOf := (a.lineOf.erase p).insert id line
    shadows := a.shadows.insert p [id] }

/-- An operation takes the next free line. -/
def served (a : LineAssignment) (id : OperationId) (line : LineId) (rest : List LineId) :
    LineAssignment :=
  { a with
    free := rest
    owners := a.owners.set line (some id)
    lineOf := a.lineOf.insert id line }

/-- An operation waits. -/
def queued (a : LineAssignment) (id : OperationId) : LineAssignment :=
  { a with waiting := a.waiting ++ [id] }

theorem placeUnder_eq_overtaken (h : Arranged f settled a) (hline : a.lineOf.get? p = some line) :
    a.placeUnder id (some p) = a.overtaken id line p :=
  placeUnder_of_held hline ((h.booked.agree p line).mp hline) (h.onLine hline).2.2

theorem placeUnder_eq_served (h : Arranged f settled a)
    (habove : ∀ p, parent = some p → a.lineOf.get? p = none) (hfree : a.free = line :: rest) :
    a.placeUnder id parent = a.served id line rest :=
  placeUnder_of_freed habove hfree ((h.booked.mem_free line).mp (hfree ▸ List.mem_cons_self)).2

theorem placeUnder_eq_queued (habove : ∀ p, parent = some p → a.lineOf.get? p = none)
    (hfree : a.free = []) : a.placeUnder id parent = a.queued id := by
  have htaken : a.placeUnder id parent = a.takeFree id := by
    unfold placeUnder
    cases parent with
    | none => rfl
    | some p => simp [habove p rfl]
  simp only [htaken, takeFree, queued, hfree]

/-! ## Ways back -/

theorem set_owner (hlen : line < a.owners.length) {owner : Option OperationId}
    (howner : a.ownerOf line = owner) : a.owners.set line owner = a.owners := by
  have hget : a.owners[line] = owner := by
    rw [ownerOf, List.getElem?_eq_getElem hlen] at howner
    exact howner
  rw [← hget, List.set_getElem_self]

theorem passOn_set (owner : Option OperationId) :
    passOn { a with owners := a.owners.set line owner } line = a.passOn line := by
  simp only [passOn, List.set_set]

theorem reverse_overtaken (h : Arranged f settled a) (hid : a.lineOf.get? id = none)
    (hline : a.lineOf.get? p = some line) :
    (a.overtaken id line p).after id (.toParent line p) = a := by
  have howner := (h.booked.agree p line).mp hline
  have hnew : (a.lineOf.erase p).get? id = none := by rw [Table.get?_erase, hid, ite_self]
  simp only [overtaken, after, Table.erase_insert_of_none hnew, Table.insert_erase_of_get? hline,
    List.set_set, set_owner (lt_of_ownerOf howner) howner,
    Table.erase_insert_of_none (h.onLine hline).2.2]

theorem reverse_served (h : Arranged f settled a) (hbusy : a.Busy) (hid : a.lineOf.get? id = none)
    (hfree : a.free = line :: rest) :
    (a.served id line rest).after id (.fromLine line) = a := by
  obtain ⟨hlen, howner⟩ := (h.booked.mem_free line).mp (hfree ▸ List.mem_cons_self)
  have hwaiting : a.waiting = [] := by
    by_contra hne
    rw [hbusy hne] at hfree
    cases hfree
  simp only [served, after, passOn, hwaiting, Table.erase_insert_of_none hid, List.set_set,
    set_owner hlen howner, ← hfree]
  rw [← hwaiting]

theorem reverse_queued (hid : id ∉ a.waiting) : (a.queued id).after id .fromQueue = a := by
  simp only [queued, after, List.erase_append_right _ hid, List.erase_cons_head, List.append_nil]

/-- A parent takes over the line of its own parent and passes its former line on. -/
def movedUp (a : LineAssignment) (line : LineId) (p : OperationId) (upper : LineId)
    (g : OperationId) : LineAssignment :=
  passOn
    { a with
      lineOf := (a.lineOf.erase g).insert p upper
      owners := a.owners.set upper (some p)
      shadows := a.shadows.insert g [p] } line

theorem after_overtaken (h : Arranged f settled a) (hid : a.lineOf.get? id = none)
    (hline : a.lineOf.get? p = some line) (hupper : a.lineOf.get? g = some upper) (hne : p ≠ g) :
    (a.overtaken id line p).after id (.underGrandparent line p upper g) =
      a.movedUp line p upper g := by
  have hapart : line ≠ upper := fun heq => hne (h.booked.eq_of_lineOf hline (heq ▸ hupper))
  have hnew : (a.lineOf.erase p).get? id = none := by rw [Table.get?_erase, hid, ite_self]
  simp only [overtaken, after, Table.erase_insert_of_none hnew, Table.insert_erase_erase,
    Table.erase_insert_of_none (h.onLine hline).2.2, List.set_comm _ _ hapart]
  exact passOn_set (a := { a with
    lineOf := (a.lineOf.erase g).insert p upper
    owners := a.owners.set upper (some p)
    shadows := a.shadows.insert g [p] }) (some id)

theorem lineOf_movedUp (h : Arranged f settled a) (hline : a.lineOf.get? p = some line) :
    (a.movedUp line p upper g).lineOf.get? p = some upper := by
  rw [movedUp, lineOf_passOn, Table.get?_insert, if_pos rfl]
  exact fun hserved => (h.onLine hline).2.1 (List.mem_of_mem_take hserved)

theorem inShadowOf_movedUp (h : Arranged f settled a) (hupper : a.lineOf.get? g = some upper)
    (hne : p ≠ g) : (a.movedUp line p upper g).InShadowOf g p := by
  have hwait := (h.onLine hupper).2.1
  refine ⟨?_, ?_, ?_⟩
  · rw [movedUp, lineOf_passOn, Table.get?_insert, if_neg hne, Table.get?_erase, if_pos rfl]
    exact fun hserved => hwait (List.mem_of_mem_take hserved)
  · rw [movedUp, waiting_passOn]
    exact fun hmem => hwait (List.mem_of_mem_drop hmem)
  · rw [movedUp, shadows_passOn, Table.get?_insert, if_pos rfl]

/-! ## There and back -/

/-- What an operation that has just started leaves when it goes. -/
theorem retire_place (hf : f.Coherent) (h : Arranged f {id | f.contains id} a) (hbusy : a.Busy)
    (hstart : f.start id parent description status = .ok (o, f')) {d : Departure}
    (hd : (a.placeUnder id parent).Departs f' id d) :
    (a.place o).retire o f = (a.placeUnder id parent).after id d := by
  have hplace : a.place o = a.placeUnder id parent := by
    rw [place, (Forest.start_eq_ok hstart).2.2.1]
  have hplaced := h.place hstart
  rw [hplace] at hplaced ⊢
  exact hd.retire_eq (hf.start hstart) hplaced (hbusy.placeUnder parent) (hf.reverse hstart)

/-- A line that was taken over goes back to the parent, or under the parent of that. -/
theorem departs_overtaken (a : LineAssignment) (line : Nat) (hf : f.Coherent)
    (hstart : f.start id (some p) description status = .ok (o, f')) :
    ((∀ g, f.parentOf p = some g → a.lineOf.get? g = none) →
      (a.overtaken id line p).Departs f' id (.toParent line p)) ∧
    ∀ g upper, f.parentOf p = some g → a.lineOf.get? g = some upper →
      (a.overtaken id line p).Departs f' id (.underGrandparent line p upper g) := by
  obtain ⟨hid, hruns, -, -⟩ := Forest.start_eq_ok hstart
  have hapart : ∀ other, f.contains other = true → id ≠ other := by
    rintro other hother rfl
    rw [hid] at hother
    cases hother
  have hlines : ∀ other, id ≠ other →
      (a.overtaken id line p).lineOf.get? other = (a.lineOf.erase p).get? other :=
    fun other hne => by rw [overtaken, Table.get?_insert, if_neg hne]
  have hline : (a.overtaken id line p).lineOf.get? id = some line := by
    rw [overtaken, Table.get?_insert, if_pos rfl]
  have hparent : f'.parentOf id = some p := by rw [Forest.parentOf_started hstart, if_pos rfl]
  have hshadows : (a.overtaken id line p).Shadows id p :=
    ⟨[id], by rw [overtaken, Table.get?_insert, if_pos rfl], List.mem_singleton_self id⟩
  have hhigher : f'.parentOf p = f.parentOf p := by
    rw [Forest.parentOf_started hstart, if_neg (hapart p (hruns p rfl))]
  constructor
  · intro habove
    refine .toParent hline hparent hshadows fun g hg => ?_
    rw [hhigher] at hg
    rw [hlines g (hapart g (hf.parent_runs hg)), Table.get?_erase, habove g hg, ite_self]
  · intro g upper hg hupper
    refine .underGrandparent hline hparent hshadows (hhigher.trans hg) ?_
    have hne : p ≠ g := fun heq => hf.ancestor_ne_self 0 p (heq ▸ hg)
    rw [hlines g (hapart g (hf.parent_runs hg)), Table.get?_erase, if_neg hne, hupper]

namespace Arranged

/-- What came to a free line or into the queue leaves no trace. -/
theorem reverse_of_bare (hf : f.Coherent) (h : Arranged f {id | f.contains id} a) (hbusy : a.Busy)
    (hstart : f.start id parent description status = .ok (o, f'))
    (habove : ∀ p, parent = some p → a.lineOf.get? p = none) : (a.place o).retire o f = a := by
  have hid := (Forest.start_eq_ok hstart).1
  obtain ⟨hline, hwait, -⟩ := h.nowhere id (by simp [hid])
  cases hfree : a.free with
  | nil =>
    have hplaced : a.placeUnder id parent = a.queued id := placeUnder_eq_queued habove hfree
    have hdeparts : (a.queued id).Departs f' id .fromQueue := .fromQueue List.mem_concat_self
    rw [retire_place hf h hbusy hstart (hplaced ▸ hdeparts), hplaced, reverse_queued hwait]
  | cons line rest =>
    have hplaced : a.placeUnder id parent = a.served id line rest :=
      placeUnder_eq_served h habove hfree
    have hheld : (a.served id line rest).lineOf.get? id = some line := by
      rw [served, Table.get?_insert, if_pos rfl]
    have hnot : ∀ p, ¬(a.served id line rest).Shadows id p := fun p => h.not_shadows hid
    have hdeparts : (a.served id line rest).Departs f' id (.fromLine line) :=
      .fromLine hheld fun p _ => hnot p
    rw [retire_place hf h hbusy hstart (hplaced ▸ hdeparts), hplaced,
      reverse_served h hbusy hline hfree]

/-- What took over a line gives it back to the parent. -/
theorem reverse_of_held (hf : f.Coherent) (h : Arranged f {id | f.contains id} a) (hbusy : a.Busy)
    (hstart : f.start id (some p) description status = .ok (o, f'))
    (hline : a.lineOf.get? p = some line)
    (habove : ∀ g, f.parentOf p = some g → a.lineOf.get? g = none) :
    (a.place o).retire o f = a := by
  have hid := (Forest.start_eq_ok hstart).1
  have hnone := (h.nowhere id (by simp [hid])).1
  have hplaced : a.placeUnder id (some p) = a.overtaken id line p := placeUnder_eq_overtaken h hline
  have hdeparts := (departs_overtaken a line hf hstart).1 habove
  rw [retire_place hf h hbusy hstart (hplaced ▸ hdeparts), hplaced,
    reverse_overtaken h hnone hline]

/-- Where the parent of the parent holds a line too, the parent takes over that line. -/
theorem retire_of_above (hf : f.Coherent) (h : Arranged f {id | f.contains id} a) (hbusy : a.Busy)
    (hstart : f.start id (some p) description status = .ok (o, f'))
    (hline : a.lineOf.get? p = some line) (hg : f.parentOf p = some g)
    (hupper : a.lineOf.get? g = some upper) :
    (a.place o).retire o f = a.movedUp line p upper g := by
  have hid := (Forest.start_eq_ok hstart).1
  have hnone := (h.nowhere id (by simp [hid])).1
  have hne : p ≠ g := fun heq => hf.ancestor_ne_self 0 p (heq ▸ hg)
  have hplaced : a.placeUnder id (some p) = a.overtaken id line p := placeUnder_eq_overtaken h hline
  have hdeparts := (departs_overtaken a line hf hstart).2 g upper hg hupper
  rw [retire_place hf h hbusy hstart (hplaced ▸ hdeparts), hplaced,
    after_overtaken h hnone hline hupper hne]

end Arranged

end LineAssignment

namespace Tracker

open LineAssignment

/-- After every run of events, an operation that does not run may start, on its own or under one
that runs, and complete at once. The forest is then as it was, and so are all books of the lines in
all their orders, unless the parent and the parent of that both held lines. In that case the parent
holds the line that was above it and shadows the one that held it, and its former line is passed
on. -/
theorem run_reversal (count : Nat) (events : List Event) (id : OperationId)
    (parent : Option OperationId) (description status : String)
    (hid : (run events (ofLines count)).forest.contains id = false)
    (hparent : ∀ p, parent = some p →
      (run events (ofLines count)).forest.contains p = true) :
    let t := run events (ofLines count)
    ∃ started ended, t.apply (.start id parent description status) = .ok started ∧
      started.apply (.complete id) = .ok ended ∧
      ended.forest = t.forest ∧
      ((∀ p g, parent = some p → t.forest.parentOf p = some g →
          t.lines.lineOf.get? p = none ∨ t.lines.lineOf.get? g = none) →
        ended.lines = t.lines) ∧
      ∀ p g line upper, parent = some p → t.forest.parentOf p = some g →
        t.lines.lineOf.get? p = some line → t.lines.lineOf.get? g = some upper →
        ended.lines.lineOf.get? p = some upper ∧ ended.lines.InShadowOf g p ∧
          ended.lines = t.lines.movedUp line p upper g := by
  intro t
  obtain ⟨hf, ha⟩ : t.Sound := (sound_ofLines count).run events
  have hbusy : t.lines.Busy := busy_run count events
  obtain ⟨o, f', hstart⟩ : ∃ o f', t.forest.start id parent description status = .ok (o, f') :=
    Forest.exists_start hid hparent description status
  let started : Tracker :=
    { forest := f'
      lines := t.lines.place o
      headline := t.headline.after (.start id parent description status) }
  let ended : Tracker :=
    { forest := t.forest
      lines := (t.lines.place o).retire o t.forest
      headline := started.headline.after (.complete id) }
  have hstarted : t.apply (.start id parent description status) = .ok started := by
    simp only [apply, hstart, Except.map, started]
  have hended : started.apply (.complete id) = .ok ended := by
    simp only [apply, started, hf.reverse hstart, Except.map, ended]
  refine ⟨started, ended, hstarted, hended, rfl, fun habove => ?_,
    fun p g line upper hp hg hline hupper => ?_⟩
  · by_cases hheld : ∃ p line, parent = some p ∧ t.lines.lineOf.get? p = some line
    · obtain ⟨p, line, rfl, hline⟩ := hheld
      refine ha.reverse_of_held hf hbusy hstart hline fun g hg => ?_
      exact (habove p g rfl hg).resolve_left (by simp [hline])
    · refine ha.reverse_of_bare hf hbusy hstart fun p hp => ?_
      exact Option.eq_none_iff_forall_ne_some.mpr fun line hline => hheld ⟨p, line, hp, hline⟩
  · subst hp
    have hmoved : ended.lines = t.lines.movedUp line p upper g :=
      ha.retire_of_above hf hbusy hstart hline hg hupper
    have hne : p ≠ g := fun heq => hf.ancestor_ne_self 0 p (heq ▸ hg)
    rw [hmoved]
    exact ⟨lineOf_movedUp ha hline, inShadowOf_movedUp ha hupper hne, rfl⟩

/-- The operations 3 and 4 came to the two lines out of the queue, and 6 waits. A child of 6 leaves
no trace. A child of 4 leaves 4 on the line of its parent 3, and 6 on the line that 4 held. -/
theorem run_reversal_of_nested :
    let t := run [.start 1 none "" "", .start 2 none "" "", .start 3 none "" "",
      .start 4 (some 3) "" "", .complete 1, .complete 2, .start 6 none "" ""] (ofLines 2)
    (t.forest.contains 5 = false ∧ t.forest.contains 4 = true ∧ t.forest.contains 6 = true) ∧
    (∃ started ended, t.apply (.start 5 (some 6) "" "") = .ok started ∧
      started.apply (.complete 5) = .ok ended ∧ ended.forest = t.forest ∧
      ended.lines = t.lines) ∧
    ∃ started ended, t.apply (.start 5 (some 4) "" "") = .ok started ∧
      started.apply (.complete 5) = .ok ended ∧ ended.forest = t.forest ∧
      ended.lines.lineOf.get? 4 = some 0 ∧ ended.lines.InShadowOf 3 4 ∧
      ended.lines.lineOf.get? 6 = some 1 := by
  intro t
  have hid : t.forest.contains 5 = false := by decide
  have hfour : t.forest.contains 4 = true := by decide
  have hsix : t.forest.contains 6 = true := by decide
  refine ⟨⟨hid, hfour, hsix⟩, ?_, ?_⟩
  · obtain ⟨started, ended, hstarted, hended, hforest, hsame, -⟩ :=
      run_reversal 2 _ 5 (some 6) "" "" hid fun p hp => Option.some.inj hp ▸ hsix
    have hwaits : t.lines.lineOf.get? 6 = none := by decide
    exact ⟨started, ended, hstarted, hended, hforest,
      hsame fun p g hp _ => Option.some.inj hp ▸ Or.inl hwaits⟩
  · obtain ⟨started, ended, hstarted, hended, hforest, -, hmoved⟩ :=
      run_reversal 2 _ 5 (some 4) "" "" hid fun p hp => Option.some.inj hp ▸ hfour
    obtain ⟨hline, hshadow, hlines⟩ :=
      hmoved 4 3 1 0 rfl (by decide) (by decide) (by decide)
    exact ⟨started, ended, hstarted, hended, hforest, hline, hshadow, by rw [hlines]; decide⟩

end Tracker

end ProgressDisplay
