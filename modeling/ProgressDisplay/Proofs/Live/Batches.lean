import ProgressDisplay.Proofs.Live.Alarms
import ProgressDisplay.Proofs.Live.Captions

/-!
# Batches of events

Throttle, clock and flushes decide which events are applied together. None of it can be seen in
the end: events are applied once and in order, and two displays that were given the same events
agree once nothing waits in either.

* `InOrder.drain`: a drain goes on where the last one stopped.
* `Progress.run`: how far a run has come with the events that it was given.
* `run_batches_agree`: what is true of one run, and of two.
-/

namespace ProgressDisplay

open Tracker

/-! ## Runs on a terminal that does not get in the way -/

namespace DisplayAction

/-- The event that an action hands over. -/
def event? : DisplayAction → Option Event
  | accept e => some e
  | _ => none

/-- Whether an action leaves the display open and its terminal as it is. -/
def isPlain : DisplayAction → Bool
  | close | resize _ | page _ => false
  | _ => true

/-- The events that a run hands over. -/
def offered (actions : List DisplayAction) : List Event := actions.filterMap event?

theorem offered_cons (a : DisplayAction) (rest : List DisplayAction) :
    offered (a :: rest) = a.event?.toList ++ offered rest := by
  rw [offered, List.filterMap_cons]
  cases a.event? <;> rfl

end DisplayAction

/-- Whether it was the device that failed. -/
def DisplayError.isDevice : DisplayError → Bool
  | device _ => true
  | _ => false

/-- The events up to the first that ends the output. -/
def untilEnd : List Event → List Event
  | [] => []
  | e :: rest => if e = .endOfOutput then [e] else e :: untilEnd rest

theorem untilEnd_append_of_mem {first : List Event} (h : .endOfOutput ∈ first)
    (second : List Event) : untilEnd (first ++ second) = untilEnd first := by
  induction first with
  | nil => exact absurd h List.not_mem_nil
  | cons e rest ih =>
    rw [List.cons_append, untilEnd, untilEnd]
    split
    · rfl
    · rename_i hother
      rw [ih ((List.mem_cons.mp h).resolve_left fun he => hother he.symm)]

theorem untilEnd_append_of_not_mem {first : List Event} (h : .endOfOutput ∉ first)
    (second : List Event) : untilEnd (first ++ second) = first ++ untilEnd second := by
  induction first with
  | nil => rfl
  | cons e rest ih =>
    have hother : e ≠ .endOfOutput := fun he => h (he ▸ List.mem_cons_self)
    have hrest : .endOfOutput ∉ rest := fun hr => h (List.mem_cons_of_mem e hr)
    rw [List.cons_append, untilEnd, if_neg hother, ih hrest, List.cons_append]

theorem untilEnd_of_not_mem {events : List Event} (h : .endOfOutput ∉ events) :
    untilEnd events = events := by
  have hsplit := untilEnd_append_of_not_mem h []
  rwa [List.append_nil, untilEnd, List.append_nil] at hsplit

namespace Display

variable {start d s : Display} {events : List Event}

/-- Whether the device took what an attempt gave it. -/
def deviceHeld (a : Attempt DisplayError Display) : Bool := !a.failure.any DisplayError.isDevice

/-- Nothing fails on the device during a run. -/
def Undisturbed : List DisplayAction → Display → Prop
  | [], _ => True
  | a :: rest, d => deviceHeld (d.act a) ∧ Undisturbed rest (d.act a).state

instance decidableUndisturbed :
    ∀ (actions : List DisplayAction) (d : Display), Decidable (Undisturbed actions d)
  | [], _ => .isTrue trivial
  | a :: rest, d =>
    haveI := decidableUndisturbed rest (d.act a).state
    inferInstanceAs (Decidable (_ ∧ _))

/-- What the lines show after events, if any were applied. -/
def captionsAfter (start : Display) (applied : List Event) : List Line :=
  if applied = [] then start.page.contents
  else (applyAll applied start.tracker).1.captions start.present start.columns start.page.contents

/-- The events were applied in order, except for the last ones, which wait. -/
structure InOrder (start : Display) (events : List Event) (d : Display) : Prop where
  present : d.present = start.present
  columns : d.columns = start.columns
  applied : ∃ applied, applied ++ d.queue = events ∧
    applyAll applied start.tracker = (d.tracker, none) ∧
    d.page.contents = start.captionsAfter applied

/-- How far a display has come with the events that it was given. -/
inductive Progress (start : Display) (events : List Event) (d : Display) : Prop
  | running (hphase : d.phase = .running) (hopen : .endOfOutput ∉ events)
      (horder : InOrder start events d)
  | ended (hphase : d.phase = .ended) (hend : .endOfOutput ∈ events) (hqueue : d.queue = [])
      (horder : InOrder start (untilEnd events) d)
  | stopped {refusal : Event × ProtocolViolation} (hphase : d.phase = .stopped)
      (hqueue : d.queue = [])
      (hrefused : applyAll (untilEnd events) start.tracker = (d.tracker, some refusal))

theorem captions_captionsAfter {applied : List Event} {t later : Tracker}
    (happlied : applyAll applied start.tracker = (t, none)) (hcovers : later.Covers t) :
    later.captions start.present start.columns (start.captionsAfter applied) =
      later.captions start.present start.columns start.page.contents := by
  unfold captionsAfter
  split
  · rfl
  · rw [happlied]
    exact hcovers.captions_captions _ _ _

theorem InOrder.eq_of_queue (h : InOrder start events d) (hqueue : d.queue = []) :
    applyAll events start.tracker = (d.tracker, none) ∧
      d.page.contents = start.captionsAfter events := by
  obtain ⟨applied, hsplit, happlied, hcontents⟩ := h.applied
  rw [hqueue, List.append_nil] at hsplit
  rw [← hsplit]
  exact ⟨happlied, hcontents⟩

theorem InOrder.enqueue (h : InOrder start events d) (e : Event) :
    InOrder start (events ++ [e]) (d.enqueue e) where
  present := h.present
  columns := h.columns
  applied := by
    obtain ⟨applied, rfl, happlied⟩ := h.applied
    exact ⟨applied, (List.append_assoc applied d.queue [e]).symm, happlied⟩

/-- A drain on a device that does not fail applies all that waits, or stops at a refused event. -/
theorem InOrder.drain (h : InOrder start events d) (hrunning : d.phase = .running)
    (hheld : deviceHeld d.drain) :
    (d.drain.state.phase = .running ∧ InOrder start events d.drain.state) ∨
      (d.drain.state.phase = .stopped ∧ d.drain.state.queue = [] ∧ ∃ refusal,
        applyAll events start.tracker = (d.drain.state.tracker, some refusal)) := by
  have hdrains : d.Drains d.drain := drains (by rw [hrunning]; decide)
  obtain ⟨applied, hsplit, happlied, hcontents⟩ := h.applied
  generalize d.drain = a at hdrains hheld
  cases hdrains with
  | idle hqueue => exact .inl ⟨hrunning, h⟩
  | shown hqueue hrest hdrawn =>
    rename_i tracker page
    have hall : applyAll events start.tracker = (tracker, none) := by
      rw [← hsplit, applyAll_append happlied, hrest]
    have hevents : events ≠ [] := fun h => hqueue (List.append_eq_nil_iff.mp (hsplit.trans h)).2
    have hcovers : tracker.Covers d.tracker := by
      have := covers_applyAll d.queue d.tracker
      rwa [hrest] at this
    refine .inl ⟨hrunning, h.present, h.columns, events, List.append_nil events, hall, ?_⟩
    -- The lines are composed on top of what an earlier drain left, which is hidden altogether.
    calc page.contents
        = ({ d.emptied with tracker }).compose.page.flush.state.contents := by rw [hdrawn]; rfl
      _ = ({ d.emptied with tracker }).compose.page.contents := Page.contents_flush _
      _ = tracker.captions d.present d.columns d.page.contents := contents_compose _
      _ = tracker.captions start.present start.columns (start.captionsAfter applied) := by
        rw [h.present, h.columns, hcontents]
      _ = tracker.captions start.present start.columns start.page.contents :=
        captions_captionsAfter happlied hcovers
      _ = start.captionsAfter events := by rw [captionsAfter, if_neg hevents, hall]
  | failed => cases hheld
  | refused hrest =>
    rename_i tracker e violation
    refine .inr ⟨rfl, rfl, (e, violation), ?_⟩
    rw [← hsplit, applyAll_append happlied, hrest]

/-! ## One action after another -/

/-- The displays differ at most in clock, alarms, and what is drawn. -/
structure Alike (d s : Display) : Prop where
  present : s.present = d.present := by rfl
  columns : s.columns = d.columns := by rfl
  tracker : s.tracker = d.tracker := by rfl
  queue : s.queue = d.queue := by rfl
  phase : s.phase = d.phase := by rfl
  contents : s.page.contents = d.page.contents := by rfl

theorem InOrder.alike (h : InOrder start events d) (hs : d.Alike s) : InOrder start events s where
  present := hs.present.trans h.present
  columns := hs.columns.trans h.columns
  applied := by
    rw [hs.queue, hs.tracker, hs.contents]
    exact h.applied

namespace Progress

theorem alike (h : Progress start events d) (hs : d.Alike s) : Progress start events s := by
  cases h with
  | running hphase hopen horder => exact .running (hs.phase.trans hphase) hopen (horder.alike hs)
  | ended hphase hend hqueue horder =>
    exact .ended (hs.phase.trans hphase) hend (hs.queue.trans hqueue) (horder.alike hs)
  | stopped hphase hqueue hrefused =>
    exact .stopped (hs.phase.trans hphase) (hs.queue.trans hqueue) (hs.tracker ▸ hrefused)

theorem drain (h : Progress start events d) (hheld : deviceHeld d.drain) :
    Progress start events d.drain.state := by
  cases h with
  | running hphase hopen horder =>
    obtain ⟨hrunning, horder⟩ | ⟨hstopped, hqueue, refusal, hrefused⟩ := horder.drain hphase hheld
    · exact .running hrunning hopen horder
    · exact .stopped hstopped hqueue ((untilEnd_of_not_mem hopen).symm ▸ hrefused)
  | ended hphase hend hqueue horder =>
    rw [drain_of_empty (by rw [hphase]; decide) hqueue]
    exact .ended hphase hend hqueue horder
  | stopped hphase hqueue hrefused =>
    rw [drain_of_stopped hphase]
    exact .stopped hphase hqueue hrefused

theorem open_of_running (h : Progress start events d) (hphase : d.phase = .running) :
    .endOfOutput ∉ events ∧ InOrder start events d := by
  cases h with
  | running _ hopen horder => exact ⟨hopen, horder⟩
  | ended hended => exact absurd (hphase.symm.trans hended) (by decide)
  | stopped hstopped => exact absurd (hphase.symm.trans hstopped) (by decide)

theorem enqueue (h : Progress start events d) (hphase : d.phase = .running) {e : Event}
    (hother : e ≠ .endOfOutput) : Progress start (events ++ [e]) (d.enqueue e) := by
  obtain ⟨hopen, horder⟩ := h.open_of_running hphase
  refine .running hphase ?_ (horder.enqueue e)
  rw [List.mem_append, List.mem_singleton]
  exact fun h => h.elim hopen fun he => hother he.symm

/-- The event that ends the output is applied at once, with all that waits. -/
theorem last (h : Progress start events d) (hphase : d.phase = .running)
    (hheld : deviceHeld (d.enqueue .endOfOutput).drain) :
    Progress start (events ++ [.endOfOutput]) (d.enqueue .endOfOutput).drain.state.finish := by
  obtain ⟨hopen, horder⟩ := h.open_of_running hphase
  have hall : untilEnd (events ++ [.endOfOutput]) = events ++ [.endOfOutput] :=
    untilEnd_append_of_not_mem hopen _
  have hdrained := @drained_of_running (d.enqueue .endOfOutput) hphase
  obtain ⟨hrunning, horder⟩ | ⟨hstopped, hqueue, refusal, hrefused⟩ :=
    (horder.enqueue .endOfOutput).drain hphase hheld
  · rw [finish, if_pos hrunning]
    refine .ended rfl (List.mem_append_right _ List.mem_cons_self) hdrained.queue ?_
    rw [hall]
    exact ⟨horder.present, horder.columns, horder.applied⟩
  · rw [finish, if_neg (by rw [hstopped]; decide)]
    exact .stopped hstopped hqueue (hall.symm ▸ hrefused)

/-- What comes when the display no longer runs changes nothing. -/
theorem extend (h : Progress start events d) (hphase : d.phase ≠ .running) (e : Event) :
    Progress start (events ++ [e]) d := by
  cases h with
  | running hrunning => exact absurd hrunning hphase
  | ended hended hend hqueue horder =>
    refine .ended hended (List.mem_append_left _ hend) hqueue ?_
    rwa [untilEnd_append_of_mem hend]
  | stopped hstopped hqueue hrefused =>
    rename_i refusal
    refine @stopped start (events ++ [e]) d refusal hstopped hqueue ?_
    -- The refused event stands before the new one, which is never reached.
    by_cases hend : .endOfOutput ∈ events
    · rw [untilEnd_append_of_mem hend, hrefused]
    · rw [untilEnd_append_of_not_mem hend]
      rw [untilEnd_of_not_mem hend] at hrefused
      exact applyAll_append_of_refused hrefused

theorem append_nil (h : Progress start events d) : Progress start (events ++ []) d := by
  rwa [List.append_nil]

theorem act (h : Progress start events d) (hinteractive : d.interactive = true)
    {a : DisplayAction} (hplain : a.isPlain = true) (hheld : deviceHeld (d.act a)) :
    Progress start (events ++ a.event?.toList) (d.act a).state := by
  have hdoes : d.Does a (d.act a) := does hinteractive a
  generalize d.act a = r at hdoes hheld
  cases hdoes with
  | last hphase => exact (h.last hphase hheld).alike {}
  | wait hphase hother => exact h.enqueue hphase hother
  | atOnce hphase hother => exact (h.enqueue hphase hother).drain hheld
  | later hphase hother => exact (h.enqueue hphase hother).alike {}
  | unheeded hphase | rejected hphase => exact h.extend (by rw [hphase]; decide) _
  | unheededLast hphase => exact (h.extend (by rw [hphase]; decide) _).alike {}
  | redraw => exact (h.alike { contents := Page.contents_flush d.page }).append_nil
  | flush => exact (h.drain hheld).append_nil
  | setVisible => exact (h.alike { contents := Page.contents_setVisible d.page _ }).append_nil
  | output =>
    obtain ⟨page, hcontents, hpage⟩ := exists_output_eq d _
    rw [hpage]
    exact (h.alike { contents := hcontents }).append_nil
  | giveUpOutput => exact (h.alike { contents := Page.contents_outputAll d.page _ }).append_nil
  | ring => exact ((h.alike {}).drain hheld).append_nil
  | ringInVain | clock => exact (h.alike {}).append_nil
  | silence => exact h.append_nil
  | close | closeAgain | resize | page => cases hplain

theorem run {actions : List DisplayAction} (h : Progress start events d) (hwatched : d.Watched)
    (hplain : ∀ a ∈ actions, a.isPlain = true) (hheld : Undisturbed actions d) :
    Progress start (events ++ DisplayAction.offered actions) (d.run actions) := by
  induction actions generalizing events d with
  | nil => exact h.append_nil
  | cons a rest ih =>
    have hact := h.act hwatched.interactive (hplain a List.mem_cons_self) hheld.1
    have hrest := ih hact (hwatched.act a) (fun b hb => hplain b (List.mem_cons_of_mem a hb))
      hheld.2
    rwa [List.append_assoc, ← DisplayAction.offered_cons] at hrest

end Progress

/-! ## Where nothing waits -/

/-- A display that has come as far as the events that it was given go. -/
structure Settled (start : Display) (events : List Event) (d : Display) : Prop where
  tracker : d.tracker = (applyAll (untilEnd events) start.tracker).1
  contents : (applyAll (untilEnd events) start.tracker).2 = none →
    d.page.contents = start.captionsAfter (untilEnd events)
  phase : (applyAll (untilEnd events) start.tracker).2 ≠ none → d.phase = .stopped

theorem InOrder.settled (h : InOrder start (untilEnd events) d) (hqueue : d.queue = []) :
    Settled start events d := by
  obtain ⟨happlied, hcontents⟩ := h.eq_of_queue hqueue
  exact ⟨by rw [happlied], fun _ => hcontents, fun hrefused => absurd (by rw [happlied]) hrefused⟩

theorem Progress.settled (h : Progress start events d) (hqueue : d.queue = []) :
    Settled start events d := by
  cases h with
  | running _ hopen horder =>
    exact InOrder.settled ((untilEnd_of_not_mem hopen).symm ▸ horder) hqueue
  | ended _ _ _ horder => exact horder.settled hqueue
  | stopped hphase _ hrefused =>
    refine ⟨by rw [hrefused], fun hnone => ?_, fun _ => hphase⟩
    rw [hrefused] at hnone
    exact nomatch hnone

theorem Settled.agree {start' d' : Display} (h : Settled start events d)
    (h' : Settled start' events d') (hstart : start'.tracker = start.tracker) :
    d'.tracker = d.tracker := by
  rw [h.tracker, h'.tracker, hstart]

theorem Settled.of_fold (h : Settled start events d) {t : Tracker}
    (hfold : (untilEnd events).foldlM Tracker.apply start.tracker = .ok t) :
    d.tracker = t ∧ d.page.contents = start.captionsAfter (untilEnd events) := by
  have hall := applyAll_eq_none_iff.mpr hfold
  exact ⟨h.tracker.trans (congrArg Prod.fst hall), h.contents (congrArg Prod.snd hall)⟩

theorem Settled.of_refused (h : Settled start events d) {before after : List Event} {e : Event}
    {t : Tracker} {violation : ProtocolViolation} (hsplit : untilEnd events = before ++ e :: after)
    (hbefore : before.foldlM Tracker.apply start.tracker = .ok t)
    (hrefused : t.apply e = .error violation) : d.tracker = t ∧ d.phase = .stopped := by
  have hstop : applyAll (untilEnd events) start.tracker = (t, some (e, violation)) := by
    rw [hsplit]
    exact applyAll_of_refused hbefore hrefused
  exact ⟨h.tracker.trans (congrArg Prod.fst hstop), h.phase (by rw [hstop]; exact nofun)⟩

theorem captionsAfter_congr {start' : Display} (htracker : start'.tracker = start.tracker)
    (hpresent : start'.present = start.present) (hcolumns : start'.columns = start.columns)
    (hcontents : start'.page.contents = start.page.contents) (applied : List Event) :
    start'.captionsAfter applied = start.captionsAfter applied := by
  rw [captionsAfter, captionsAfter, htracker, hpresent, hcolumns, hcontents]

/-- Actions that leave the display open and its terminal as it is, and do not fail on the device. -/
structure Steady (actions : List DisplayAction) (d : Display) : Prop where
  plain : ∀ a ∈ actions, a.isPlain = true
  undisturbed : Undisturbed actions d

theorem progress_onTerminal (page : Page) (present : LineAssignment.Presentation)
    (columns : Option Nat) (throttle : Nat) :
    Progress (onTerminal page present columns throttle) []
      (onTerminal page present columns throttle) :=
  .running rfl List.not_mem_nil ⟨rfl, rfl, [], rfl, rfl, rfl⟩

theorem Steady.progress {page : Page} {present : LineAssignment.Presentation}
    {columns : Option Nat} {throttle : Nat} {actions : List DisplayAction}
    (h : Steady actions (onTerminal page present columns throttle)) :
    Progress (onTerminal page present columns throttle) (DisplayAction.offered actions)
      (run actions (onTerminal page present columns throttle)) :=
  (progress_onTerminal page present columns throttle).run
    (watched_onTerminal page present columns throttle) h.plain h.undisturbed

/-- While a display runs, the events applied, in order, and those that wait are those it was given.
Two displays with as many lines that were given the same events agree once nothing waits in
either: both have applied all events up to the end of the output and show the same, or both have
stopped at the first event that contradicts those before it. -/
theorem run_batches_agree (present : LineAssignment.Presentation) (columns : Option Nat) :
    (∀ page throttle actions,
      Steady actions (onTerminal page present columns throttle) →
      let d := run actions (onTerminal page present columns throttle)
      d.phase = .running →
      ∃ applied, applied ++ d.queue = DisplayAction.offered actions ∧
        applied.foldlM Tracker.apply (.ofLines page.block.workers.length) = .ok d.tracker) ∧
    (∀ page page' throttle throttle' actions actions',
      page'.block.workers.length = page.block.workers.length →
      DisplayAction.offered actions' = DisplayAction.offered actions →
      Steady actions (onTerminal page present columns throttle) →
      Steady actions' (onTerminal page' present columns throttle') →
      let d := run actions (onTerminal page present columns throttle)
      let d' := run actions' (onTerminal page' present columns throttle')
      d.queue = [] → d'.queue = [] →
      d'.tracker = d.tracker ∧
      (∀ t, (untilEnd (DisplayAction.offered actions)).foldlM Tracker.apply
          (.ofLines page.block.workers.length) = .ok t →
        d.tracker = t ∧
        (page'.contents = page.contents → d'.page.contents = d.page.contents)) ∧
      (∀ before e after t violation,
        untilEnd (DisplayAction.offered actions) = before ++ e :: after →
        before.foldlM Tracker.apply (.ofLines page.block.workers.length) = .ok t →
        t.apply e = .error violation →
        d.tracker = t ∧ d.phase = .stopped ∧ d'.phase = .stopped)) := by
  constructor
  · intro page throttle actions hsteady d hrunning
    obtain ⟨-, horder⟩ := hsteady.progress.open_of_running hrunning
    obtain ⟨applied, hsplit, happlied, -⟩ := horder.applied
    exact ⟨applied, hsplit, applyAll_eq_none_iff.mp happlied⟩
  · intro page page' throttle throttle' actions actions' hlines hsame hsteady hsteady' d d' hqueue
      hqueue'
    have hsettled := hsteady.progress.settled hqueue
    have hsettled' := hsteady'.progress.settled hqueue'
    rw [hsame] at hsettled'
    have hfresh : (onTerminal page' present columns throttle').tracker =
        (onTerminal page present columns throttle).tracker := congrArg Tracker.ofLines hlines
    refine ⟨hsettled.agree hsettled' hfresh, fun t hfold => ?_,
      fun before e after t violation hsplit hbefore hrefused => ?_⟩
    · obtain ⟨htracker, hshown⟩ := hsettled.of_fold hfold
      obtain ⟨-, hshown'⟩ := hsettled'.of_fold (by rw [hfresh]; exact hfold)
      refine ⟨htracker, fun hcontents => ?_⟩
      rw [hshown, hshown']
      exact captionsAfter_congr hfresh rfl rfl hcontents _
    · obtain ⟨htracker, hstopped⟩ := hsettled.of_refused hsplit hbefore hrefused
      obtain ⟨-, hstopped'⟩ :=
        hsettled'.of_refused hsplit (by rw [hfresh]; exact hbefore) hrefused
      exact ⟨htracker, hstopped, hstopped'⟩

/-- Events that are drawn at once, the same with output and an alarm in between, and an operation
that starts twice. -/
theorem run_batches_agree_of_alarm :
    let build : Event := .start 1 none "build" ""
    let link : Event := .start 2 (some 1) "link" "50%"
    let prompt := onTerminal (.start {} .blank 1) Operation.present (some 80) 0
    let slow := onTerminal (.start {} .blank 1) Operation.present (some 80) 85
    let waiting : List DisplayAction := [.accept build, .accept link, .output [.line "log"]]
    (∃ applied, applied ++ (slow.run waiting).queue = [build, link] ∧
      applied.foldlM Tracker.apply (.ofLines 1) = .ok (slow.run waiting).tracker) ∧
    (slow.run (waiting ++ [.ring 0])).page.contents =
      (prompt.run [.accept build, .accept link]).page.contents ∧
    (prompt.run [.accept build, .accept build, .accept link]).tracker =
      (applyAll [build] (.ofLines 1)).1 ∧
    (slow.run [.accept build, .accept build, .accept link, .flush]).phase = .stopped := by
  intro build link prompt slow waiting
  obtain ⟨hone, htwo⟩ := run_batches_agree Operation.present (some 80)
  refine ⟨hone (.start {} .blank 1) 85 waiting ⟨by decide, by decide +kernel⟩ (by decide +kernel),
    ?_, ?_⟩
  · obtain ⟨-, hcomplete, -⟩ := htwo (.start {} .blank 1) (.start {} .blank 1) 0 85
      [.accept build, .accept link] (waiting ++ [.ring 0]) rfl rfl
      ⟨by decide, by decide +kernel⟩ ⟨by decide, by decide +kernel⟩ (by decide +kernel)
      (by decide +kernel)
    exact (hcomplete (applyAll [build, link] (.ofLines 1)).1 rfl).2 rfl
  · obtain ⟨-, -, hrefused⟩ := htwo (.start {} .blank 1) (.start {} .blank 1) 0 85
      [.accept build, .accept build, .accept link]
      [.accept build, .accept build, .accept link, .flush] rfl rfl
      ⟨by decide, by decide +kernel⟩ ⟨by decide, by decide +kernel⟩ (by decide +kernel)
      (by decide +kernel)
    obtain ⟨htracker, -, hphase⟩ := hrefused [build] build [link] (applyAll [build] (.ofLines 1)).1
      (.alreadyStarted 1) rfl rfl rfl
    exact ⟨htracker, hphase⟩

end Display

end ProgressDisplay
