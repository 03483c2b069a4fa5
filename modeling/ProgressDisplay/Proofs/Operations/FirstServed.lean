import ProgressDisplay.Proofs.Operations.Exclusive

/-!
# First come, first served

Operations wait for lines in the order in which they were started. An operation joins the queue
when it starts and at no other time: a parent that gets a line back always finds one, for a line
has just come free. A completion serves one waiting operation at most, and serves the first.

* `waiting_retire`: how far a completion moves the queue.
* `requeues`: all that an accepted event can do to the queue.
* `run_firstServed`: what is true of the queue after every run of events.
-/

namespace ProgressDisplay

namespace LineAssignment

variable {f : Forest} {settled : Set OperationId} {a : LineAssignment} {id : OperationId}
  {parent : Option OperationId}

/-! ## What placing and serving do to the queue -/

theorem waiting_placeUnder :
    (a.placeUnder id parent).waiting = a.waiting ∨
      (a.placeUnder id parent).waiting = a.waiting ++ [id] := by
  unfold placeUnder
  split
  · exact .inl rfl
  · unfold takeFree
    split
    · exact .inl rfl
    · exact .inr rfl

/-- Where a line is free nobody joins the queue. -/
theorem waiting_placeUnder_of_free (h : a.free ≠ []) :
    (a.placeUnder id parent).waiting = a.waiting := by
  unfold placeUnder
  split
  · rfl
  · unfold takeFree
    split
    · rfl
    · rename_i hnil
      exact absurd hnil h

theorem length_free_placeUnder_le : (a.placeUnder id parent).free.length ≤ a.free.length := by
  unfold placeUnder
  split
  · exact Nat.le_refl _
  · unfold takeFree
    split
    · rename_i line rest hfree
      rw [hfree]
      exact Nat.le_succ rest.length
    · exact Nat.le_refl _

theorem waiting_handOut (free : List LineId) (waiting : List OperationId) :
    (a.handOut free waiting).waiting = waiting.drop free.length := by
  fun_induction handOut a free waiting with
  | case1 a line free id waiting ih => exact ih
  | case2 a free waiting hone =>
    cases free with
    | nil => rfl
    | cons line rest =>
      cases waiting with
      | nil => rfl
      | cons id others => exact absurd rfl (hone line rest id others rfl)

theorem waiting_restore_of_free (h : a.free ≠ []) :
    (a.restore f parent).waiting = a.waiting := by
  cases parent with
  | none => rfl
  | some p => exact waiting_placeUnder_of_free h

theorem length_free_restore_le : (a.restore f parent).free.length ≤ a.free.length := by
  cases parent with
  | none => exact Nat.le_refl _
  | some p => exact length_free_placeUnder_le

/-- A completed operation leaves the queue, or its line is passed on: to its parent, to the first
that waits, or to nobody. -/
theorem waiting_retire (h : Arranged f settled a) (hbusy : a.Busy) (o : Operation) (f' : Forest) :
    ∃ served ≤ 1, (a.retire o f').waiting = (a.waiting.filter (· != o.id)).drop served := by
  obtain ⟨shadows, hlifted⟩ := exists_liftShadows_eq a o
  rw [retire_eq, hlifted]
  split
  · exact ⟨0, Nat.zero_le 1, rfl⟩
  · rename_i line hline
    have hothers : a.waiting.filter (· != o.id) = a.waiting :=
      List.filter_eq_self.mpr fun other hother => by
        simpa using fun heq : other = o.id => (h.onLine hline).2.1 (heq ▸ hother)
    have hone : (release { a with shadows } o.id line).free ≠ [] := List.cons_ne_nil line a.free
    rw [fill, waiting_handOut, waiting_restore_of_free hone, hothers]
    by_cases hnobody : a.waiting = []
    · exact ⟨0, Nat.zero_le 1, by simp [release, hnobody]⟩
    · -- No line was free while somebody waited, so it is only the one that came free.
      refine ⟨_, length_free_restore_le.trans ?_, rfl⟩
      rw [release, List.length_cons, hbusy hnobody, List.length_nil]

end LineAssignment

namespace Tracker

open LineAssignment

variable {t t' : Tracker} {e : Event} {before after order : List OperationId} {id : OperationId}

/-- What an accepted event can do to the queue. -/
inductive Requeues (before : List OperationId) : Event → List OperationId → Prop where
  | placed {id : OperationId} {parent : Option OperationId} {description status : String} :
      Requeues before (.start id parent description status) before
  | queued {id : OperationId} {parent : Option OperationId} {description status : String} :
      Requeues before (.start id parent description status) (before ++ [id])
  | progress {id : OperationId} {status : String} : Requeues before (.progress id status) before
  | left {id : OperationId} : Requeues before (.complete id) (before.filter (· != id))
  | served {id next : OperationId} {rest : List OperationId}
      (hfirst : before.filter (· != id) = next :: rest) : Requeues before (.complete id) rest
  | endOfOutput : Requeues before .endOfOutput before

theorem requeues (hs : t.Sound) (hbusy : t.lines.Busy) (h : t.apply e = .ok t') :
    Requeues t.lines.waiting e t'.lines.waiting := by
  cases e with
  | start id parent description status =>
    obtain ⟨⟨o, f⟩, hstart, rfl⟩ := eq_ok_of_map h
    obtain ⟨-, -, rfl, -⟩ := Forest.start_eq_ok hstart
    show Requeues _ _ (t.lines.placeUnder id parent).waiting
    rcases waiting_placeUnder (a := t.lines) with hsame | hqueued
    · rw [hsame]
      exact .placed
    · rw [hqueued]
      exact .queued
  | progress id status =>
    obtain ⟨r, -, rfl⟩ := eq_ok_of_map h
    exact .progress
  | complete id =>
    obtain ⟨⟨o, f⟩, hcomplete, rfl⟩ := eq_ok_of_map h
    obtain rfl : o.id = id := hs.coherent.own_id (Forest.complete_eq_ok hcomplete).1
    obtain ⟨served, hserved, hwaiting⟩ := waiting_retire hs.arranged hbusy o f
    show Requeues _ _ (t.lines.retire o f).waiting
    rw [hwaiting]
    rcases Nat.le_one_iff_eq_zero_or_eq_one.mp hserved with rfl | rfl
    · exact .left
    · cases hothers : t.lines.waiting.filter (· != o.id) with
      | nil =>
        have hleft := @Requeues.left t.lines.waiting o.id
        rwa [hothers] at hleft
      | cons next rest => exact .served hothers
  | endOfOutput =>
    obtain rfl := Except.ok.inj h
    exact .endOfOutput

namespace Requeues

theorem eq_start_of_mem (h : Requeues before e after) (hafter : id ∈ after)
    (hbefore : id ∉ before) :
    ∃ parent description status, e = .start id parent description status := by
  cases h with
  | placed | progress | endOfOutput => exact absurd hafter hbefore
  | queued =>
    obtain rfl := List.mem_singleton.mp ((List.mem_append.mp hafter).resolve_left hbefore)
    exact ⟨_, _, _, rfl⟩
  | left => exact absurd (List.mem_of_mem_filter hafter) hbefore
  | served hfirst =>
    have hmem := hfirst ▸ List.mem_cons_of_mem _ hafter
    exact absurd (List.mem_of_mem_filter hmem) hbefore

/-- Who leaves the queue completes or is the first of the others. -/
theorem eq_complete_of_not_mem (h : Requeues before e after) (hbefore : id ∈ before)
    (hafter : id ∉ after) :
    ∃ completed, e = .complete completed ∧
      (id = completed ∨ before.filter (· != completed) = id :: after) := by
  cases h with
  | placed | progress | endOfOutput => exact absurd hbefore hafter
  | queued => exact absurd (List.mem_append_left _ hbefore) hafter
  | left =>
    rename_i completed
    refine ⟨completed, rfl, .inl ?_⟩
    by_contra hne
    exact hafter (List.mem_filter.mpr ⟨hbefore, by simpa using hne⟩)
  | served hfirst =>
    rename_i completed next
    refine ⟨completed, rfl, ?_⟩
    by_cases hcompleted : id = completed
    · exact .inl hcompleted
    · have hmem : id ∈ before.filter (· != completed) :=
        List.mem_filter.mpr ⟨hbefore, by simpa using hcompleted⟩
      rw [hfirst] at hmem
      obtain rfl := (List.mem_cons.mp hmem).resolve_right hafter
      exact .inr hfirst

end Requeues

/-! ## The order of the starts -/

/-- The running operations in the order of their starts, after an accepted event. -/
def orderAfter (order : List OperationId) : Event → List OperationId
  | .start id _ _ _ => order ++ [id]
  | .complete id => order.filter (· != id)
  | .progress _ _ | .endOfOutput => order

/-- The running operations in the order of their starts, after a run of events. -/
def startOrder : List Event → Tracker → List OperationId → List OperationId
  | [], _, order => order
  | e :: rest, t, order =>
    match t.apply e with
    | .ok t' => startOrder rest t' (orderAfter order e)
    | .error _ => startOrder rest t order

/-- The order of the starts names each running operation once, and the queue keeps to it. -/
structure Ordered (t : Tracker) (order : List OperationId) : Prop where
  nodup : order.Nodup
  mem_iff : ∀ id, id ∈ order ↔ t.forest.contains id = true
  waiting : t.lines.waiting.Sublist order

theorem Requeues.sublist (h : Requeues before e after) (hbefore : before.Sublist order) :
    after.Sublist (orderAfter order e) := by
  cases h with
  | placed => exact hbefore.trans (List.sublist_append_left order _)
  | queued => exact hbefore.append (List.Sublist.refl _)
  | progress | endOfOutput => exact hbefore
  | left => exact hbefore.filter _
  | served hfirst =>
    rename_i completed next
    have hothers : (next :: after).Sublist (order.filter (· != completed)) :=
      hfirst ▸ hbefore.filter (· != completed)
    exact (List.sublist_cons_self next after).trans hothers

theorem Ordered.apply (h : Ordered t order) (hs : t.Sound) (hbusy : t.lines.Busy)
    (ha : t.apply e = .ok t') : Ordered t' (orderAfter order e) := by
  have hwaiting := (requeues hs hbusy ha).sublist h.waiting
  cases e with
  | start id parent description status =>
    obtain ⟨⟨o, f⟩, hstart, rfl⟩ := eq_ok_of_map ha
    have hfresh : id ∉ order := by
      rw [h.mem_iff, (Forest.start_eq_ok hstart).1]
      exact Bool.false_ne_true
    have hnodup : (order ++ [id]).Nodup := by
      rw [← List.concat_eq_append]
      exact h.nodup.concat hfresh
    refine ⟨hnodup, fun other => ?_, hwaiting⟩
    rw [orderAfter, List.mem_append, List.mem_singleton, h.mem_iff, or_comm]
    exact (Forest.contains_started hstart other).symm
  | progress id status =>
    obtain ⟨⟨o, f⟩, hprogress, rfl⟩ := eq_ok_of_map ha
    refine ⟨h.nodup, fun other => ?_, hwaiting⟩
    rw [orderAfter, h.mem_iff]
    exact iff_of_eq (congrArg (· = true) (Forest.contains_progressed hprogress other).symm)
  | complete id =>
    obtain ⟨⟨o, f⟩, hcomplete, rfl⟩ := eq_ok_of_map ha
    refine ⟨h.nodup.filter _, fun other => ?_, hwaiting⟩
    rw [orderAfter, List.mem_filter, h.mem_iff, bne_iff_ne, and_comm]
    exact (Forest.contains_completed hcomplete other).symm
  | endOfOutput =>
    obtain rfl := Except.ok.inj ha
    exact ⟨h.nodup, h.mem_iff, hwaiting⟩

theorem Ordered.run (h : Ordered t order) (hs : t.Sound) (hbusy : t.lines.Busy)
    (events : List Event) : Ordered (t.run events) (startOrder events t order) := by
  induction events generalizing t order with
  | nil => exact h
  | cons e rest ih =>
    show Ordered (Tracker.run rest (t.step e)) _
    unfold startOrder step
    cases ha : t.apply e with
    | ok t' => exact ih (h.apply hs hbusy ha) (hs.apply ha) (busy_apply hbusy ha)
    | error violation => exact ih h hs hbusy

theorem ordered_ofLines (count : Nat) : Ordered (ofLines count) [] where
  nodup := List.nodup_nil
  mem_iff := fun id => by simp [ofLines, Forest.contains, Forest.get?, Forest.empty]
  waiting := List.Sublist.refl []

/-- What heads a part of a list without repetitions stands before the rest of the part. -/
theorem idxOf_lt_of_sublist {first later : OperationId} {rest all : List OperationId}
    (hall : all.Nodup) (h : (first :: rest).Sublist all) (hlater : later ∈ rest) :
    all.idxOf first < all.idxOf later := by
  induction all with
  | nil => cases h
  | cons x xs ih =>
    obtain ⟨hx, hxs⟩ := List.nodup_cons.mp hall
    cases h with
    | cons _ hpart =>
      have hfirst : x ≠ first := fun heq => hx (heq ▸ hpart.subset List.mem_cons_self)
      have hne : x ≠ later := fun heq =>
        hx (heq ▸ hpart.subset (List.mem_cons_of_mem first hlater))
      rw [List.idxOf_cons_ne xs hfirst, List.idxOf_cons_ne xs hne]
      exact Nat.succ_lt_succ (ih hxs hpart)
    | cons_cons _ hpart =>
      have hne : first ≠ later := fun heq => hx (heq ▸ hpart.subset hlater)
      rw [List.idxOf_cons_self, List.idxOf_cons_ne xs hne]
      exact Nat.succ_pos _

/-- After every run of events, the queue is in the order of the starts of the operations that run.
Of any event that is accepted next: who joins the queue starts with it, and where someone who
waits gets a line, an operation completes and, without it, the queue begins with whom it serves.
Whoever was started before the one served waits no more. -/
theorem run_firstServed (count : Nat) (events : List Event) :
    let t := run events (ofLines count)
    let order := startOrder events (ofLines count) []
    order.Nodup ∧ (∀ id, id ∈ order ↔ t.forest.contains id = true) ∧
    t.lines.waiting.Sublist order ∧
    ∀ e t', t.apply e = .ok t' →
      (∀ id, id ∈ t'.lines.waiting → id ∉ t.lines.waiting →
        ∃ parent description status, e = .start id parent description status) ∧
      ∀ next line, next ∈ t.lines.waiting → t'.lines.lineOf.get? next = some line →
        (∃ completed, e = .complete completed ∧
          t.lines.waiting.filter (· != completed) = next :: t'.lines.waiting) ∧
        ∀ elder, order.idxOf elder < order.idxOf next → elder ∉ t'.lines.waiting := by
  intro t order
  have hs : t.Sound := (sound_ofLines count).run events
  have hbusy : t.lines.Busy := busy_run count events
  have hordered : Ordered t order :=
    (ordered_ofLines count).run (sound_ofLines count) (fun hwaiting => absurd rfl hwaiting) events
  refine ⟨hordered.nodup, hordered.mem_iff, hordered.waiting, fun e t' ha => ?_⟩
  have hqueue := requeues hs hbusy ha
  refine ⟨fun id hafter hbefore => hqueue.eq_start_of_mem hafter hbefore,
    fun next line hnext hline => ?_⟩
  have harranged := (hs.apply ha).arranged
  obtain ⟨completed, rfl, hcompleted | hfirst⟩ :=
    hqueue.eq_complete_of_not_mem hnext (harranged.onLine hline).2.1
  · -- What has completed holds no line.
    have hruns := harranged.mem_of_lineOf hline
    obtain ⟨⟨o, f⟩, hcomplete, rfl⟩ := eq_ok_of_map ha
    exact absurd hcompleted ((Forest.contains_completed hcomplete next).mp hruns).1
  · refine ⟨⟨completed, rfl, hfirst⟩, fun elder helder hwaits => ?_⟩
    have hpart : (next :: t'.lines.waiting).Sublist order :=
      hfirst ▸ List.filter_sublist.trans hordered.waiting
    exact Nat.lt_asymm helder (idxOf_lt_of_sublist hordered.nodup hpart hwaits)

end Tracker

end ProgressDisplay
