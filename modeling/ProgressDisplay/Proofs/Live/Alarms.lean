import ProgressDisplay.Proofs.Live.Actions

/-!
# Alarms and waiting events

Events wait in the queue of a running display only while an alarm is set. The alarm is set in one
place and forgotten in another, while drains of other origin empty the queue in between, so there
is one invariant over the queue, the timer and the flag together.

* `run_watched`: what is true of queue and timer after every run.
-/

namespace ProgressDisplay.Display

variable {d s : Display}

/-- Whatever waits is waited for, by one alarm that the flag knows of. -/
structure Watched (d : Display) : Prop where
  interactive : d.interactive = true
  accepting : d.phase = .running → d.timer.shutDown = false
  single : d.phase = .running → d.timer.alarms.length = d.alarmSet.toNat
  waiting : d.phase = .running → d.queue ≠ [] → d.alarmSet = true
  idle : d.phase ≠ .running → d.queue = []

theorem watched_of_idle (hinteractive : d.interactive = true) (hidle : d.phase ≠ .running)
    (hqueue : d.queue = []) : d.Watched where
  interactive := hinteractive
  accepting := fun h => absurd h hidle
  single := fun h => absurd h hidle
  waiting := fun h => absurd h hidle
  idle := fun _ => hqueue

theorem watched_onTerminal (page : Page) (present : LineAssignment.Presentation)
    (columns : Option Nat) (throttle : Nat) :
    (onTerminal page present columns throttle).Watched where
  interactive := rfl
  accepting := fun _ => rfl
  single := fun _ => rfl
  waiting := fun _ hqueue => absurd rfl hqueue
  idle := fun _ => rfl

/-- A drain empties the queue, so nothing need watch over it before. -/
theorem Drained.watched (h : d.Drained s) (hinteractive : d.interactive = true)
    (haccepting : d.timer.shutDown = false) (hsingle : d.timer.alarms.length = d.alarmSet.toNat) :
    s.Watched where
  interactive := h.interactive.trans hinteractive
  accepting := fun _ => by rw [h.timer, haccepting]
  single := fun _ => by rw [h.timer, h.alarmSet, hsingle]
  waiting := fun _ hqueue => absurd h.queue hqueue
  idle := fun _ => h.queue

theorem phase_finish_ne : d.finish.phase ≠ .running := by
  unfold finish
  split
  · exact fun h => nomatch h
  · assumption

theorem queue_finish (d : Display) : d.finish.queue = d.queue := by
  unfold finish
  split <;> rfl

/-- A drain that was the last leaves nothing to wait for. -/
theorem Drained.watched_finish (h : d.Drained s) (hinteractive : d.interactive = true) :
    s.finish.Watched := by
  have hsame : s.finish.interactive = s.interactive := by
    unfold finish
    split <;> rfl
  exact watched_of_idle (hsame.trans (h.interactive.trans hinteractive)) phase_finish_ne
    ((queue_finish s).trans h.queue)

namespace Watched

theorem withPage (h : d.Watched) (page : Page) : (d.withPage page).Watched :=
  ⟨h.interactive, h.accepting, h.single, h.waiting, h.idle⟩

theorem stopTimer (h : d.Watched) (hidle : d.phase ≠ .running) : d.stopTimer.Watched :=
  watched_of_idle h.interactive hidle (h.idle hidle)

theorem drain (h : d.Watched) : d.drain.state.Watched := by
  by_cases hrunning : d.phase = .running
  · exact (drained_of_running hrunning).watched h.interactive (h.accepting hrunning)
      (h.single hrunning)
  · unfold Display.drain
    rw [if_pos (h.idle hrunning)]
    split <;> exact h

/-- Where no alarm was set, the one that is set is the only one. -/
theorem timer_schedule (h : d.Watched) (hrunning : d.phase = .running)
    (hunset : d.alarmSet = false) (e : Event) :
    (d.enqueue e).schedule.timer = { alarms := [⟨d.now, d.throttle⟩] } := by
  have hnone : d.timer.alarms.length = 0 := by rw [h.single hrunning, hunset]; rfl
  rcases htimer : d.timer with ⟨alarms, shutDown⟩
  have hopen := h.accepting hrunning
  rw [htimer] at hnone hopen
  simp only [Display.schedule, Display.enqueue, Timer.set, htimer, hopen, Bool.false_eq_true,
    if_false, List.eq_nil_of_length_eq_zero hnone, List.nil_append]

theorem schedule (h : d.Watched) (hrunning : d.phase = .running) (hunset : d.alarmSet = false)
    (e : Event) : (d.enqueue e).schedule.Watched := by
  have htimer := h.timer_schedule hrunning hunset e
  refine ⟨h.interactive, fun _ => ?_, fun _ => ?_, fun _ _ => rfl,
    fun hidle => absurd hrunning hidle⟩
  · rw [htimer]
  · rw [htimer]
    rfl

/-- The one alarm of a display that runs has left the timer when it rings. -/
theorem alarms_forget (h : d.Watched) (hrunning : d.phase = .running) {index : Nat}
    (hrings : index < d.timer.alarms.length ∨ d.timer.shutDown) :
    (d.forget index).timer.alarms.length = 0 := by
  have hindex : index < d.timer.alarms.length :=
    hrings.resolve_right (by rw [h.accepting hrunning]; decide)
  have hone : d.timer.alarms.length ≤ 1 := by
    rw [h.single hrunning]
    exact Bool.toNat_le d.alarmSet
  show (d.timer.alarms.eraseIdx index).length = 0
  rw [List.length_eraseIdx_of_lt hindex]
  omega

theorem act (h : d.Watched) (a : DisplayAction) : (d.act a).state.Watched := by
  have hdoes : d.Does a (d.act a) := does h.interactive a
  generalize d.act a = r at hdoes
  cases hdoes with
  | last hphase =>
    exact ((@drained_of_running (d.enqueue .endOfOutput) hphase).watched_finish
      h.interactive).stopTimer phase_finish_ne
  | wait hphase _ hset =>
    exact ⟨h.interactive, h.accepting, h.single, fun _ _ => hset, fun hidle => absurd hphase hidle⟩
  | atOnce hphase =>
    -- The event needs no alarm, for the drain does not leave it in the queue.
    exact (@drained_of_running (d.enqueue _) hphase).watched h.interactive (h.accepting hphase)
      (h.single hphase)
  | later hphase _ hunset => exact h.schedule hphase hunset _
  | unheeded | rejected | silence => exact h
  | unheededLast hphase => exact h.stopTimer (by rw [hphase]; decide)
  | redraw | setVisible | giveUpOutput | page => exact h.withPage _
  | flush => exact h.drain
  | output =>
    obtain ⟨page, -, hpage⟩ := exists_output_eq d _
    rw [hpage]
    exact h.withPage page
  | close hphase =>
    exact ((@drained_of_running d.stopTimer hphase).watched_finish h.interactive).withPage _
  | closeAgain hphase => exact (h.stopTimer hphase).withPage _
  | ring hphase hrings =>
    exact (@drained_of_running (d.forget _) hphase).watched h.interactive (h.accepting hphase)
      (h.alarms_forget hphase hrings)
  | ringInVain hphase => exact watched_of_idle h.interactive hphase (h.idle hphase)
  | clock | resize => exact ⟨h.interactive, h.accepting, h.single, h.waiting, h.idle⟩

theorem run (h : d.Watched) (actions : List DisplayAction) : (d.run actions).Watched :=
  List.foldlRecOn actions _ h fun _ h a _ => h.act a

end Watched

/-- After every run of a display on a terminal, whatever fails on the way: while the display runs,
an alarm is set if an event waits, no more than one is, and the flag says whether one is. When it
runs no more, no event waits. -/
theorem run_watched (page : Page) (present : LineAssignment.Presentation) (columns : Option Nat)
    (throttle : Nat) (actions : List DisplayAction) :
    let d := run actions (onTerminal page present columns throttle)
    (d.phase = .running →
      (d.queue ≠ [] → d.timer.alarms.length = 1) ∧
      d.timer.alarms.length ≤ 1 ∧
      (d.alarmSet = true ↔ d.timer.alarms.length = 1)) ∧
    (d.phase ≠ .running → d.queue = []) := by
  intro d
  have hwatched : d.Watched := (watched_onTerminal page present columns throttle).run actions
  refine ⟨fun hrunning => ?_, hwatched.idle⟩
  rw [hwatched.single hrunning]
  refine ⟨fun hqueue => ?_, Bool.toNat_le d.alarmSet, Bool.toNat_eq_one.symm⟩
  rw [hwatched.waiting hrunning hqueue, Bool.toNat_true]

end ProgressDisplay.Display
