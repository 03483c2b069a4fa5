import ProgressDisplay.Proofs.Live.Actions
import ProgressDisplay.Proofs.Operations.Refusals
import ProgressDisplay.Proofs.Regions.LineBreaks
import ProgressDisplay.Proofs.Regions.Withdrawal

/-!
# Violations that are reported

An event that contradicts the ones before it is met when the queue that it waits in is drained. The
drain reports it and stops the display; by then the events before it are applied and nothing is
drawn. A close drains the queue too, but then it goes on to take the block off the screen, and if
that fails it reports nothing else.

* `drain_reports`: what a drain comes to that meets such an event.
* `reports_iff`: which calls report it.
-/

namespace ProgressDisplay.Display

variable {d : Display} {events : List Event} {e last : Event} {violation : ProtocolViolation}
  {tracker : Tracker}

/-! ## Drains -/

theorem drain_of_refused (hrunning : d.phase = .running)
    (hrefused : d.tracker.Refuses d.queue tracker e violation) :
    d.drain = ⟨{ d.emptied with tracker, phase := .stopped }, some (.event e violation)⟩ := by
  have happlied := Tracker.applyAll_eq_some_iff.mpr hrefused
  have hdrains : d.Drains d.drain := drains_of_running hrunning
  generalize d.drain = a at hdrains
  cases hdrains with
  | idle hqueue =>
    rw [hqueue] at happlied
    cases happlied
  | shown _ hother | failed _ hother =>
    rw [hother] at happlied
    cases happlied
  | refused hother =>
    rw [hother] at happlied
    cases happlied
    rfl

/-- A drain that cannot apply all events reports the first one that is refused. The events before it
are applied and have changed all that they change; the refused one has changed nothing, although it
makes its changes one after the other. Of the rest of the display only the queue, the time of the
last drain and the phase are other than before, so no line has a new content, nothing is written and
the device is not flushed. -/
theorem drain_reports (hrunning : d.phase = .running)
    (hviolated : ∀ tracker, d.queue.foldlM Tracker.apply d.tracker ≠ .ok tracker) :
    ∃ (before after : List Event) (e : Event) (violation : ProtocolViolation) (tracker : Tracker),
      d.queue = before ++ e :: after ∧
      before.foldlM Tracker.apply d.tracker = .ok tracker ∧
      tracker.apply e = .error violation ∧
      tracker.inSteps e = ⟨tracker, some violation⟩ ∧
      Tracker.allInSteps d.queue d.tracker = ⟨tracker, some (e, violation)⟩ ∧
      d.drain =
        ⟨{ d with queue := [], lastDrain := some d.now, tracker, phase := .stopped },
          some (.event e violation)⟩ ∧
      (DisplayError.event e violation).message =
        "Unable to process incoming event '" ++ e.describe ++ "' (" ++ e.kind ++ ")" ∧
      (DisplayError.event e violation).cause? = some violation.message := by
  obtain ⟨tracker, e, violation, hrefused⟩ := Tracker.exists_refuses hviolated
  have happlied := Tracker.applyAll_eq_some_iff.mpr hrefused
  have hdrain := drain_of_refused hrunning hrefused
  obtain ⟨before, after, hqueue, hbefore, hviolation⟩ := hrefused
  refine ⟨before, after, e, violation, tracker, hqueue, hbefore, hviolation, ?_, ?_, hdrain, rfl,
    rfl⟩
  · rw [Tracker.inSteps_eq, hviolation]
    rfl
  · rw [Tracker.allInSteps_eq, happlied]

/-- An operation completes that does not run, between two events that could be applied. -/
theorem drain_reports_of_unknown :
    let d := run [.accept (.start 1 none "BUILD" ""), .accept (.start 2 (some 1) "link" ""),
      .accept (.complete 7), .accept (.complete 2)]
      (onTerminal .fresh Operation.present (some 80) 85)
    d.phase = .running ∧ (∀ tracker, d.queue.foldlM Tracker.apply d.tracker ≠ .ok tracker) ∧
      ∃ tracker, tracker.forest.size = 2 ∧ d.drain =
        ⟨{ d with queue := [], lastDrain := some d.now, tracker, phase := .stopped },
          some (.event (.complete 7) (.notRunning 7))⟩ := by
  intro d
  have hrunning : d.phase = .running := by decide +kernel
  have herror : d.queue.foldlM Tracker.apply d.tracker = .error (.notRunning 7) := by rfl
  have hviolated : ∀ tracker, d.queue.foldlM Tracker.apply d.tracker ≠ .ok tracker :=
    fun _ hok => nomatch herror.symm.trans hok
  obtain ⟨before, after, e, violation, tracker, -, -, -, -, happlied, hdrain, -, -⟩ :=
    drain_reports hrunning hviolated
  have hsize : (Tracker.allInSteps d.queue d.tracker).state.forest.size = 2 := by decide +kernel
  have hfailure : d.drain.failure = some (.event (.complete 7) (.notRunning 7)) := by decide +kernel
  rw [happlied] at hsize
  rw [hdrain] at hfailure
  exact ⟨hrunning, hviolated, tracker, hsize, hfailure ▸ hdrain⟩

/-! ## Calls -/

/-- The events that a call makes a running display apply at once, its own among them. -/
def drainedBy (d : Display) : DisplayAction → Option (List Event)
  | .accept e =>
    if e = .endOfOutput ∨ d.alarmSet = false ∧ d.due = true then some (d.queue ++ [e]) else none
  | .flush | .close => some d.queue
  | _ => none

section

variable (hinteractive : d.interactive = true) (hrunning : d.phase = .running)

include hinteractive hrunning

theorem failure_accept (hatOnce : last = .endOfOutput ∨ d.alarmSet = false ∧ d.due = true)
    (hrefused : d.tracker.Refuses (d.queue ++ [last]) tracker e violation) :
    (d.act (.accept last)).failure = some (.event e violation) := by
  have hdrain : (d.enqueue last).drain.failure = some (.event e violation) :=
    congrArg Attempt.failure (drain_of_refused (d := d.enqueue last) hrunning hrefused)
  have hdoes : d.Does (.accept last) (d.act (.accept last)) := does hinteractive _
  generalize d.act (.accept last) = r at hdoes
  cases hdoes with
  | last | atOnce => exact hdrain
  | wait _ hother hset =>
    obtain ⟨hunset, -⟩ := hatOnce.resolve_left hother
    exact absurd (hset.symm.trans hunset) (by decide)
  | later _ hother _ hearly =>
    obtain ⟨-, hdue⟩ := hatOnce.resolve_left hother
    exact absurd (hdue.symm.trans hearly) (by decide)
  | unheeded hphase | unheededLast hphase | rejected hphase =>
    exact absurd (hrunning.symm.trans hphase) (by decide)

theorem failure_flush (hrefused : d.tracker.Refuses d.queue tracker e violation) :
    (d.act .flush).failure = some (.event e violation) := by
  have hdrain := congrArg Attempt.failure (drain_of_refused hrunning hrefused)
  have hdoes : d.Does .flush (d.act .flush) := does hinteractive _
  generalize d.act .flush = r at hdoes
  cases hdoes with
  | redraw hqueue =>
    obtain ⟨before, after, hsplit, -⟩ := hrefused
    rw [hqueue] at hsplit
    exact absurd hsplit.symm (by simp)
  | flush => exact hdrain

/-- The failure to take the block off the screen comes first. -/
theorem failure_close (hrefused : d.tracker.Refuses d.queue tracker e violation) :
    (d.act .close).failure =
      (d.page.close.failure.map DisplayError.device).or (some (.event e violation)) := by
  have hdrain := drain_of_refused (d := d.stopTimer) hrunning hrefused
  -- The drain drew nothing, so the close starts from the page as it was.
  have hpage : (Display.finish
      { d.stopTimer.emptied with tracker, phase := .stopped }).page = d.page := rfl
  rw [act, close, if_pos hinteractive, if_pos hrunning, hdrain]
  simp only [Attempt.mapFailure, Attempt.map, hpage]
  cases d.page.close.failure with
  | none => rfl
  | some failure => rfl

/-- Of the calls that drain the queue, all report the first event that cannot be applied, whatever
the device refuses, but a close that cannot take the block off the screen, which reports only
that. -/
theorem reports_iff {a : DisplayAction} (hdrained : d.drainedBy a = some events)
    (hviolated : ∀ tracker, events.foldlM Tracker.apply d.tracker ≠ .ok tracker) :
    ∃ tracker e violation, d.tracker.Refuses events tracker e violation ∧
      ((d.act a).failure = some (.event e violation) ↔ (a = .close → d.page.Withdrawable)) ∧
      ∀ failure, a = .close → d.page.close.failure = some failure →
        (d.act a).failure = some (.device failure) := by
  obtain ⟨tracker, e, violation, hrefused⟩ := Tracker.exists_refuses hviolated
  refine ⟨tracker, e, violation, hrefused, ?_⟩
  cases a with
  | accept last =>
    obtain ⟨hatOnce, hevents⟩ := Option.ite_none_right_eq_some.mp hdrained
    obtain rfl := Option.some.inj hevents
    have hreported := failure_accept hinteractive hrunning hatOnce hrefused
    exact ⟨iff_of_true hreported nofun, nofun⟩
  | flush =>
    obtain rfl := Option.some.inj hdrained
    have hreported := failure_flush hinteractive hrunning hrefused
    exact ⟨iff_of_true hreported nofun, nofun⟩
  | close =>
    obtain rfl := Option.some.inj hdrained
    have hreported := failure_close hinteractive hrunning hrefused
    rw [← Page.failure_close_eq_none_iff, hreported]
    cases hclosed : d.page.close.failure with
    | none => simp
    | some failure => simp
  | _ => cases hdrained

end

/-- A display with an event waiting that cannot be applied, on a terminal that has come to refuse
to be flushed. -/
def brokenAndWaiting : Display :=
  let d := run [.accept (.start 1 none "BUILD" ""), .accept (.complete 7)]
    (onTerminal .fresh Operation.present (some 80) 85)
  d.withPage (d.page.withFault .none (some "flush closed"))

theorem reports_iff_of_broken :
    let d := brokenAndWaiting
    (d.interactive = true ∧ d.phase = .running ∧ d.drainedBy .flush = some [.complete 7] ∧
      d.drainedBy .close = some [.complete 7] ∧
      ∀ tracker, [Event.complete 7].foldlM Tracker.apply d.tracker ≠ .ok tracker) ∧
    (∃ e violation, (d.act .flush).failure = some (.event e violation)) ∧
    (d.act .close).failure = some (.device ⟨"flush closed"⟩) := by
  intro d
  have hrunning : d.phase = .running := by decide +kernel
  have hflush : d.drainedBy .flush = some [.complete 7] := by decide +kernel
  have hclose : d.drainedBy .close = some [.complete 7] := by decide +kernel
  have herror : [Event.complete 7].foldlM Tracker.apply d.tracker = .error (.notRunning 7) := by rfl
  have hviolated : ∀ tracker, [Event.complete 7].foldlM Tracker.apply d.tracker ≠ .ok tracker :=
    fun _ hok => nomatch herror.symm.trans hok
  have hbroken : d.page.close.failure = some ⟨"flush closed"⟩ := by decide +kernel
  refine ⟨⟨rfl, hrunning, hflush, hclose, hviolated⟩, ?_, ?_⟩
  · obtain ⟨_, e, violation, -, hreports, -⟩ := reports_iff rfl hrunning hflush hviolated
    exact ⟨e, violation, hreports.mpr nofun⟩
  · obtain ⟨_, _, _, -, -, hdevice⟩ := reports_iff rfl hrunning hclose hviolated
    exact hdevice _ rfl hbroken

/-- A close reports that the flush was refused, and not the event. -/
theorem not_reports :
    ¬∀ (page : Page) (present : LineAssignment.Presentation) (columns : Option Nat) (throttle : Nat)
      (actions : List DisplayAction) (a : DisplayAction) (events : List Event) (tracker : Tracker)
      (e : Event) (violation : ProtocolViolation),
      let d := run actions (onTerminal page present columns throttle)
      d.phase = .running → d.drainedBy a = some events →
        d.tracker.Refuses events tracker e violation →
          (d.act a).failure = some (.event e violation) := by
  intro h
  have hreported : (brokenAndWaiting.act .close).failure =
      some (.event (.complete 7) (.notRunning 7)) :=
    h .fresh Operation.present (some 80) 85
      [.accept (.start 1 none "BUILD" ""), .accept (.complete 7), .page brokenAndWaiting.page]
      .close [.complete 7] brokenAndWaiting.tracker (.complete 7) (.notRunning 7)
      (by decide +kernel) (by decide +kernel) ⟨[], [], rfl, rfl, by rfl⟩
  revert hreported
  decide +kernel

end ProgressDisplay.Display
