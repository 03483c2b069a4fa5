import ProgressDisplay.Proofs.Operations.History

/-!
# The headline follows the latest root

An operation that starts without a parent is a root. The headline knows no more than an id and a
text, and ids are used again, yet what it shows is what the events since the latest start of a root
say of that root.

* `Leads.foldlM`: a root that leads goes on to do so, with its latest status, until it completes.
* `foldlM_headline`: the headline after every run of accepted events, from the events alone.
-/

namespace ProgressDisplay

namespace Event

/-- Whether the event starts an operation without a parent. -/
def startsRoot : Event → Bool
  | start _ none _ _ => true
  | _ => false

/-- The status that the event reports of an operation. -/
def statusOf (id : OperationId) : Event → Option String
  | progress other status => if other = id then some status else none
  | _ => none

end Event

namespace Headline

variable {s : Headline} {e : Event}

/-- Where no root is followed, only the start of a root changes the headline. -/
theorem after_of_rootless (hroot : s.root = none) (he : e.startsRoot = false) : s.after e = s := by
  cases e with
  | start id parent description status =>
    cases parent with
    | none => cases he
    | some p => rfl
  | progress id status => simp [after, hroot]
  | complete id => simp [after, hroot]
  | endOfOutput => rfl

theorem isSome_current_after (h : s.current.isSome) (e : Event) : (s.after e).current.isSome := by
  unfold after
  split
  · rfl
  · exact h
  · split
    · rfl
    · exact h
  · split
    · rfl
    · exact h
  · exact h

end Headline

namespace Tracker

variable {t t' : Tracker} {e : Event} {root : OperationId} {shown : String} {later : List Event}

/-- A running operation without a parent stands for the build, and this is shown of it. -/
structure Leads (t : Tracker) (root : OperationId) (shown : String) : Prop where
  headline : t.headline = ⟨some root, some shown⟩
  runs : t.forest.contains root = true
  parentless : t.forest.parentOf root = none

theorem leads_of_start {description status : String}
    (ha : t.apply (.start root none description status) = .ok t') : t'.Leads root description := by
  obtain ⟨⟨o, f⟩, hstart, rfl⟩ := eq_ok_of_map ha
  refine ⟨rfl, ?_, ?_⟩
  · exact (Forest.contains_started hstart root).mpr (.inl rfl)
  · rw [Forest.parentOf_started hstart, if_pos rfl]

namespace Leads

/-- Neither what other operations do nor what is reported of the root ends its lead. -/
theorem apply (h : t.Leads root shown) (ha : t.apply e = .ok t') (he : e.startsRoot = false)
    (hgoes : e ≠ .complete root) : t'.Leads root ((e.statusOf root).getD shown) := by
  have hafter := headline_apply ha
  rw [h.headline] at hafter
  cases e with
  | start id parent description status =>
    obtain ⟨⟨o, f⟩, hstart, rfl⟩ := eq_ok_of_map ha
    have hne : id ≠ root := by
      rintro rfl
      have hnew := (Forest.start_eq_ok hstart).1
      rw [h.runs] at hnew
      cases hnew
    refine ⟨?_, (Forest.contains_started hstart root).mpr (.inr h.runs), ?_⟩
    · cases parent with
      | none => cases he
      | some p => exact hafter
    · rw [Forest.parentOf_started hstart, if_neg hne, h.parentless]
  | progress id status =>
    obtain ⟨⟨o, f⟩, hprogress, rfl⟩ := eq_ok_of_map ha
    refine ⟨?_, ?_, ?_⟩
    · rw [hafter]
      by_cases hid : id = root
      · simp [Headline.after, Event.statusOf, hid]
      · have hid' : ¬root = id := fun h => hid h.symm
        simp [Headline.after, Event.statusOf, hid, hid']
    · rw [Forest.contains_progressed hprogress, h.runs]
    · rw [Forest.parentOf_progressed hprogress, h.parentless]
  | complete id =>
    obtain ⟨⟨o, f⟩, hcomplete, rfl⟩ := eq_ok_of_map ha
    have hne : root ≠ id := by
      rintro rfl
      exact hgoes rfl
    refine ⟨?_, (Forest.contains_completed hcomplete root).mpr ⟨hne, h.runs⟩, ?_⟩
    · rw [hafter]
      simp [Headline.after, Event.statusOf, hne]
    · rw [Forest.parentOf_completed hcomplete, if_neg hne.symm, h.parentless]
  | endOfOutput =>
    obtain rfl := Except.ok.inj ha
    exact h

theorem complete (h : t.Leads root shown) (ha : t.apply (.complete root) = .ok t') :
    t'.headline = ⟨none, some ""⟩ := by
  rw [headline_apply ha, h.headline]
  simp [Headline.after]

end Leads

theorem headline_of_rootless (hrun : later.foldlM Tracker.apply t = .ok t')
    (hroot : t.headline.root = none) (hlater : ∀ e ∈ later, e.startsRoot = false) :
    t'.headline = t.headline := by
  induction later generalizing t with
  | nil =>
    obtain rfl := Except.ok.inj hrun
    rfl
  | cons e rest ih =>
    obtain ⟨next, ha, hrest⟩ := foldlM_cons_eq_ok_iff.mp hrun
    have hsame : next.headline = t.headline := by
      rw [headline_apply ha]
      exact Headline.after_of_rootless hroot (hlater e List.mem_cons_self)
    rw [ih hrest (hsame ▸ hroot) fun d hd => hlater d (List.mem_cons_of_mem e hd), hsame]

/-- While no other root starts, a root leads with its latest status until it completes, and then
nothing is shown, whatever may be started under its id. -/
theorem Leads.foldlM (h : t.Leads root shown) (hrun : later.foldlM Tracker.apply t = .ok t')
    (hlater : ∀ e ∈ later, e.startsRoot = false) :
    (.complete root ∉ later →
      t'.Leads root ((later.filterMap (Event.statusOf root)).getLastD shown)) ∧
    (.complete root ∈ later → t'.headline = ⟨none, some ""⟩) := by
  induction later generalizing t shown with
  | nil =>
    obtain rfl := Except.ok.inj hrun
    exact ⟨fun _ => h, fun hmem => by cases hmem⟩
  | cons e rest ih =>
    obtain ⟨next, ha, hrest⟩ := foldlM_cons_eq_ok_iff.mp hrun
    have hothers : ∀ d ∈ rest, d.startsRoot = false :=
      fun d hd => hlater d (List.mem_cons_of_mem e hd)
    by_cases hgoes : e = .complete root
    · subst hgoes
      have hgone := h.complete ha
      refine ⟨fun hnot => absurd List.mem_cons_self hnot, fun _ => ?_⟩
      rw [headline_of_rootless hrest (by rw [hgone]) hothers, hgone]
    · obtain ⟨hstays, hgone⟩ :=
        ih (h.apply ha (hlater e List.mem_cons_self) hgoes) hrest hothers
      refine ⟨fun hnot => ?_, fun hmem => ?_⟩
      · have hstatus := hstays fun hmem => hnot (List.mem_cons_of_mem e hmem)
        cases hreport : e.statusOf root with
        | none => rwa [hreport, Option.getD_none, ← List.filterMap_cons_none hreport] at hstatus
        | some status =>
          rw [List.filterMap_cons_some hreport, List.getLastD_cons]
          rwa [hreport, Option.getD_some] at hstatus
      · exact hgone ((List.mem_cons.mp hmem).resolve_left fun heq => hgoes heq.symm)

theorem isSome_current_foldlM (hrun : later.foldlM Tracker.apply t = .ok t')
    (h : t.headline.current.isSome) : t'.headline.current.isSome := by
  induction later generalizing t with
  | nil =>
    obtain rfl := Except.ok.inj hrun
    exact h
  | cons e rest ih =>
    obtain ⟨next, ha, hrest⟩ := foldlM_cons_eq_ok_iff.mp hrun
    refine ih hrest ?_
    rw [headline_apply ha]
    exact Headline.isSome_current_after h e

theorem current_eq_none_iff {count : Nat} {events : List Event}
    (hrun : events.foldlM Tracker.apply (ofLines count) = .ok t) :
    t.headline.current = none ↔ ∀ e ∈ events, e.startsRoot = false := by
  constructor
  · intro hnone e he
    cases hroot : e.startsRoot with
    | false => rfl
    | true =>
      obtain ⟨earlier, later, rfl⟩ := List.append_of_mem he
      obtain ⟨before, -, hrest⟩ := foldlM_append_eq_ok_iff.mp hrun
      obtain ⟨next, ha, hlater⟩ := foldlM_cons_eq_ok_iff.mp hrest
      have hsome : next.headline.current.isSome := by
        rw [headline_apply ha]
        unfold Event.startsRoot at hroot
        split at hroot
        · rfl
        · cases hroot
      have := isSome_current_foldlM hlater hsome
      simp [hnone] at this
  · intro hrootless
    rw [headline_of_rootless hrun rfl hrootless]
    rfl

/-- After every run of accepted events, nothing has ever been shown exactly if no operation has
started without a parent. Otherwise the latest one that has is followed exactly until it completes.
While it is, it runs without a parent, and its latest status is shown, or its description if it has
reported none. Once it has completed, none is followed and the empty text is shown. -/
theorem foldlM_headline (count : Nat) (events : List Event) (t : Tracker)
    (hrun : events.foldlM Tracker.apply (ofLines count) = .ok t) :
    (t.headline.current = none ↔ ∀ e ∈ events, e.startsRoot = false) ∧
    ∀ earlier root description status later,
      events = earlier ++ .start root none description status :: later →
      (∀ e ∈ later, e.startsRoot = false) →
      (t.headline.root = some root ↔ .complete root ∉ later) ∧
      (.complete root ∉ later →
        t.forest.contains root = true ∧ t.forest.parentOf root = none ∧
        t.headline.current =
          some ((later.filterMap (Event.statusOf root)).getLastD description)) ∧
      (.complete root ∈ later → t.headline.root = none ∧ t.headline.current = some "") := by
  refine ⟨current_eq_none_iff hrun, ?_⟩
  rintro earlier root description status later rfl hlater
  obtain ⟨before, -, hrest⟩ := foldlM_append_eq_ok_iff.mp hrun
  obtain ⟨next, ha, hlast⟩ := foldlM_cons_eq_ok_iff.mp hrest
  obtain ⟨hstays, hgone⟩ := (leads_of_start ha).foldlM hlast hlater
  refine ⟨⟨fun hroot hmem => ?_, fun hnot => ?_⟩, fun hnot => ?_, fun hmem => ?_⟩
  · rw [hgone hmem] at hroot
    cases hroot
  · rw [(hstays hnot).headline]
  · obtain ⟨hheadline, hruns, hparent⟩ := hstays hnot
    exact ⟨hruns, hparent, by rw [hheadline]⟩
  · rw [hgone hmem]
    exact ⟨rfl, rfl⟩

/-- The latest root ends the headline, and neither the older root that outlives it nor the child
that takes its id over brings anything back. -/
theorem foldlM_headline_of_reused :
    let outlived : List Event := [.start 1 none "FETCH" "", .start 2 none "BUILD" "",
      .progress 2 "LINKING", .progress 1 "STALE"]
    let reused : List Event := outlived ++ [.complete 2, .start 2 (some 1) "TEST" "",
      .progress 2 "RUNNING"]
    (∃ t, outlived.foldlM apply (ofLines 2) = .ok t ∧ t.headline.root = some 2 ∧
      t.headline.current = some "LINKING") ∧
    ∃ t, reused.foldlM apply (ofLines 2) = .ok t ∧ t.headline.root = none ∧
      t.headline.current = some "" := by
  intro outlived reused
  obtain ⟨first, hfirst⟩ : ∃ t, outlived.foldlM apply (ofLines 2) = .ok t := ⟨_, rfl⟩
  obtain ⟨second, hsecond⟩ : ∃ t, reused.foldlM apply (ofLines 2) = .ok t := ⟨_, rfl⟩
  refine ⟨⟨first, hfirst, ?_⟩, ⟨second, hsecond, ?_⟩⟩
  · obtain ⟨hroot, hshown, -⟩ := (foldlM_headline 2 outlived first hfirst).2
      [.start 1 none "FETCH" ""] 2 "BUILD" "" _ rfl (by decide)
    exact ⟨hroot.mpr (by decide), (hshown (by decide)).2.2⟩
  · exact ((foldlM_headline 2 reused second hsecond).2
      [.start 1 none "FETCH" ""] 2 "BUILD" "" _ rfl (by decide)).2.2 (by decide)

end Tracker

end ProgressDisplay
