import ProgressDisplay.Live.Display
import ProgressDisplay.Proofs.Regions.Contents

/-!
# What happens to a live display

A display is handed events and output, its alarms ring, time goes on, and its terminal changes. A
run takes such actions in any order. A failing action is not the end of a run: what it did up to
its failure stays done.

`Drains` and `Does` list all that a drain and an action can come to, with the conditions under which
they do.

* `drains`, `does`: nothing else happens.
* `atTime_eq_run`: alarms that are let ring together are a run of single ones.
-/

namespace ProgressDisplay

inductive DisplayAction where
  | accept (event : Event)
  | flush
  | setVisible (visible : Bool)
  | output (requests : List OutputRequest)
  /-- output that its author gives up, so that the redraw after it does not take place -/
  | giveUpOutput (requests : List OutputRequest)
  | close
  /-- The alarm at an index rings, or one that had left the timer before it was shut down. -/
  | ring (index : Nat)
  | clock (now : Int)
  | resize (columns : Option Nat)
  /-- Whatever else may befall the page, a device that begins to fail or to recover among it. -/
  | page (page : Page)

/-- The timer without the alarm at an index. -/
def Timer.drop (t : Timer) (index : Nat) : Timer := { t with alarms := t.alarms.eraseIdx index }

namespace Display

variable {d : Display} {index : Nat}

/-- A display on a terminal. -/
def onTerminal (page : Page) (present : LineAssignment.Presentation) (columns : Option Nat)
    (throttle : Nat) : Display :=
  { Display.start page true columns throttle with present }

/-- What an alarm does when it rings, with the failure that nobody is told of. -/
def answerAlarm (d : Display) : Attempt DisplayError Display :=
  let d := { d with alarmSet := false }
  if d.phase = .running then d.drain else .done d

theorem state_answerAlarm : d.answerAlarm.state = d.ring := by
  unfold answerAlarm ring
  simp only
  split <;> rfl

/-- Carries out an action. -/
def act (d : Display) : DisplayAction → Attempt DisplayError Display
  | .accept e => d.accept e
  | .flush => d.flush
  | .setVisible visible => .done (d.setVisible visible)
  | .output requests => d.output requests
  | .giveUpOutput requests => ((d.page.outputAll requests).map d.withPage).mapFailure .device
  | .close => d.close
  | .ring index =>
    if index < d.timer.alarms.length ∨ d.timer.shutDown then
      { d with timer := d.timer.drop index }.answerAlarm
    else .done d
  | .clock now => .done { d with now }
  | .resize columns => .done { d with columns }
  | .page page => .done (d.withPage page)

/-- The display after actions, of which some may have failed. -/
def run (actions : List DisplayAction) (d : Display) : Display :=
  actions.foldl (fun d a => (d.act a).state) d

/-! ## Draining -/

/-- The display at the moment at which its queue is applied. -/
def emptied (d : Display) : Display := { d with queue := [], lastDrain := some d.now }

/-- What a drain comes to. -/
inductive Drains (d : Display) : Attempt DisplayError Display → Prop where
  | idle (hqueue : d.queue = []) : Drains d (.done d)
  | shown {tracker : Tracker} {page : Page} (hqueue : d.queue ≠ [])
      (happlied : Tracker.applyAll d.queue d.tracker = (tracker, none))
      (hdrawn : ({ d.emptied with tracker }).compose.page.flush = .done page) :
      Drains d (.done { d.emptied with tracker, page })
  | failed {tracker : Tracker} {page : Page} {failure : DeviceFailure} (hqueue : d.queue ≠ [])
      (happlied : Tracker.applyAll d.queue d.tracker = (tracker, none))
      (hdrawn : ({ d.emptied with tracker }).compose.page.flush = ⟨page, some failure⟩) :
      Drains d ⟨{ d.emptied with tracker, page, phase := .stopped }, some (.device failure)⟩
  | refused {tracker : Tracker} {e : Event} {violation : ProtocolViolation}
      (happlied : Tracker.applyAll d.queue d.tracker = (tracker, some (e, violation))) :
      Drains d ⟨{ d.emptied with tracker, phase := .stopped }, some (.event e violation)⟩

theorem drains (hphase : d.phase ≠ .stopped) : d.Drains d.drain := by
  unfold drain
  rw [if_neg hphase]
  split
  · rename_i hqueue
    exact .idle hqueue
  · rename_i hqueue
    show d.Drains (stopOnFailure (d.emptied.showEvents d.queue))
    unfold showEvents
    rw [show d.emptied.tracker = d.tracker from rfl]
    rcases happlied : Tracker.applyAll d.queue d.tracker with ⟨tracker, _ | ⟨e, violation⟩⟩
    · rcases hdrawn : ({ d.emptied with tracker }).compose.page.flush with ⟨page, _ | failure⟩
      · simp only [redraw, hdrawn]
        exact .shown hqueue happlied hdrawn
      · simp only [redraw, hdrawn]
        exact .failed hqueue happlied hdrawn
    · exact .refused happlied

/-- What a drain leaves as it is, and what it leaves behind, whether it fails or not. -/
structure Drained (d s : Display) : Prop where
  interactive : s.interactive = d.interactive
  timer : s.timer = d.timer
  alarmSet : s.alarmSet = d.alarmSet
  queue : s.queue = []
  phase : s.phase = d.phase ∨ s.phase = .stopped

theorem Drains.drained {a : Attempt DisplayError Display} (h : d.Drains a) : d.Drained a.state := by
  cases h with
  | idle hqueue => exact ⟨rfl, rfl, rfl, hqueue, .inl rfl⟩
  | shown => exact ⟨rfl, rfl, rfl, rfl, .inl rfl⟩
  | failed => exact ⟨rfl, rfl, rfl, rfl, .inr rfl⟩
  | refused => exact ⟨rfl, rfl, rfl, rfl, .inr rfl⟩

theorem drains_of_running (hrunning : d.phase = .running) : d.Drains d.drain :=
  drains (by rw [hrunning]; decide)

theorem drained_of_running (hrunning : d.phase = .running) : d.Drained d.drain.state :=
  (drains_of_running hrunning).drained

/-! ## One action -/

/-- The display at the moment at which an alarm has left the timer. -/
def forget (d : Display) (index : Nat) : Display :=
  { d with timer := d.timer.drop index, alarmSet := false }

/-- The display with the block taken off the screen, as far as the device lets it. -/
def withdraw (d : Display) : Display := d.withPage d.page.close.state

/-- What an action comes to on a terminal. -/
inductive Does (d : Display) : DisplayAction → Attempt DisplayError Display → Prop where
  | last (hphase : d.phase = .running) :
      Does d (.accept .endOfOutput)
        ((d.enqueue .endOfOutput).drain.map fun d => d.finish.stopTimer)
  | wait {e : Event} (hphase : d.phase = .running) (hother : e ≠ .endOfOutput)
      (hset : d.alarmSet = true) : Does d (.accept e) (.done (d.enqueue e))
  | atOnce {e : Event} (hphase : d.phase = .running) (hother : e ≠ .endOfOutput)
      (hunset : d.alarmSet = false) (hdue : d.due = true) : Does d (.accept e) (d.enqueue e).drain
  | later {e : Event} (hphase : d.phase = .running) (hother : e ≠ .endOfOutput)
      (hunset : d.alarmSet = false) (hdue : d.due = false) :
      Does d (.accept e) (.done (d.enqueue e).schedule)
  | unheeded {e : Event} (hphase : d.phase = .stopped) (hother : e ≠ .endOfOutput) :
      Does d (.accept e) (.done d)
  | unheededLast (hphase : d.phase = .stopped) : Does d (.accept .endOfOutput) (.done d.stopTimer)
  | rejected {e : Event} (hphase : d.phase = .ended) :
      Does d (.accept e) ⟨d, some (.event e .afterEnd)⟩
  | redraw (hqueue : d.queue = []) (hphase : d.phase ≠ .stopped) : Does d .flush d.redraw
  | flush (hwaits : ¬(d.queue = [] ∧ d.phase ≠ .stopped)) : Does d .flush d.drain
  | setVisible {visible : Bool} :
      Does d (.setVisible visible) (.done (d.withPage (d.page.setVisible visible)))
  | output {requests : List OutputRequest} : Does d (.output requests) (d.output requests)
  | giveUpOutput {requests : List OutputRequest} :
      Does d (.giveUpOutput requests)
        (((d.page.outputAll requests).map d.withPage).mapFailure .device)
  | close {failure : Option DisplayError} (hphase : d.phase = .running) :
      Does d .close ⟨d.stopTimer.drain.state.finish.withdraw, failure⟩
  | closeAgain {failure : Option DisplayError} (hphase : d.phase ≠ .running) :
      Does d .close ⟨d.stopTimer.withdraw, failure⟩
  | ring {index : Nat} (hphase : d.phase = .running)
      (hrings : index < d.timer.alarms.length ∨ d.timer.shutDown) :
      Does d (.ring index) (d.forget index).drain
  | ringInVain {index : Nat} (hphase : d.phase ≠ .running)
      (hrings : index < d.timer.alarms.length ∨ d.timer.shutDown) :
      Does d (.ring index) (.done (d.forget index))
  | silence {index : Nat} (hsilent : ¬(index < d.timer.alarms.length ∨ d.timer.shutDown)) :
      Does d (.ring index) (.done d)
  | clock {now : Int} : Does d (.clock now) (.done { d with now })
  | resize {columns : Option Nat} : Does d (.resize columns) (.done { d with columns })
  | page {page : Page} : Does d (.page page) (.done (d.withPage page))

theorem does_accept (hinteractive : d.interactive = true) (e : Event) :
    d.Does (.accept e) (d.accept e) := by
  unfold accept
  rw [if_pos hinteractive]
  split
  · rename_i hphase
    unfold acceptRunning
    split
    · rename_i hlast
      exact hlast ▸ .last hphase
    · rename_i hother
      simp only
      split
      · rename_i hset
        exact .wait hphase hother hset
      · rename_i hunset
        have hunset' : d.alarmSet = false := Bool.eq_false_iff.mpr hunset
        split
        · rename_i hdue
          exact .atOnce hphase hother hunset' hdue
        · rename_i hearly
          exact .later hphase hother hunset' (Bool.eq_false_iff.mpr hearly)
  · rename_i hphase
    split
    · rename_i hlast
      exact hlast ▸ .unheededLast hphase
    · rename_i hother
      exact .unheeded hphase hother
  · rename_i hphase
    exact .rejected hphase

theorem does_close (hinteractive : d.interactive = true) : d.Does .close d.close := by
  by_cases hphase : d.phase = .running
  · obtain ⟨failure, hclose⟩ : ∃ failure,
        d.close = ⟨d.stopTimer.drain.state.finish.withdraw, failure⟩ := by
      unfold Display.close
      rw [if_pos hinteractive, if_pos hphase]
      simp only
      split <;> exact ⟨_, rfl⟩
    rw [hclose]
    exact .close hphase
  · have hfinish : d.stopTimer.finish = d.stopTimer := if_neg hphase
    obtain ⟨failure, hclose⟩ : ∃ failure, d.close = ⟨d.stopTimer.withdraw, failure⟩ := by
      unfold Display.close
      rw [if_pos hinteractive, if_neg hphase]
      simp only [Attempt.done, hfinish]
      split <;> exact ⟨_, rfl⟩
    rw [hclose]
    exact .closeAgain hphase

theorem does_ring (d : Display) (index : Nat) : d.Does (.ring index) (d.act (.ring index)) := by
  unfold act answerAlarm
  simp only
  split
  · rename_i hrings
    split
    · rename_i hphase
      exact .ring hphase hrings
    · rename_i hphase
      exact .ringInVain hphase hrings
  · rename_i hsilent
    exact .silence hsilent

theorem does (hinteractive : d.interactive = true) (a : DisplayAction) :
    d.Does a (d.act a) := by
  cases a with
  | accept e => exact does_accept hinteractive e
  | flush =>
    show d.Does .flush d.flush
    unfold Display.flush
    rw [if_pos hinteractive]
    split
    · rename_i hquiet
      exact .redraw hquiet.1 hquiet.2
    · rename_i hwaits
      exact .flush hwaits
  | setVisible visible =>
    rw [act, setVisible, if_pos hinteractive]
    exact .setVisible
  | output requests => exact .output
  | giveUpOutput requests => exact .giveUpOutput
  | close => exact does_close hinteractive
  | ring index => exact does_ring d index
  | clock now => exact .clock
  | resize columns => exact .resize
  | page page => exact .page

/-- Output changes nothing but the page, and on it not what the lines are to show. -/
theorem exists_output_eq (d : Display) (requests : List OutputRequest) :
    ∃ page, page.contents = d.page.contents ∧ (d.output requests).state = d.withPage page := by
  have hwritten := Page.contents_outputAll d.page requests
  unfold output Attempt.andThen
  split
  · simp only
    split
    · exact ⟨_, (Page.contents_flush _).trans hwritten, rfl⟩
    · exact ⟨_, (Page.contents_flushDevice _).trans hwritten, rfl⟩
  · exact ⟨_, hwritten, rfl⟩

/-! ## Alarms that ring together -/

/-- The display with another timer. -/
def withTimer (d : Display) (timer : Timer) : Display := { d with timer }

theorem stopOnFailure_withTimer (a : Attempt DisplayError Display) (timer : Timer) :
    stopOnFailure (a.map (·.withTimer timer)) = (stopOnFailure a).map (·.withTimer timer) := by
  obtain ⟨s, failure⟩ := a
  cases failure <;> rfl

theorem showEvents_withTimer (d : Display) (timer : Timer) (events : List Event) :
    (d.withTimer timer).showEvents events =
      (d.showEvents events).map (·.withTimer timer) := by
  unfold showEvents
  rw [show (d.withTimer timer).tracker = d.tracker from rfl]
  split <;> rfl

theorem drain_withTimer (d : Display) (timer : Timer) :
    (d.withTimer timer).drain = d.drain.map (·.withTimer timer) := by
  unfold drain
  rw [show (d.withTimer timer).phase = d.phase from rfl,
    show (d.withTimer timer).queue = d.queue from rfl]
  split
  · rfl
  · split
    · rfl
    · rw [← stopOnFailure_withTimer]
      exact congrArg stopOnFailure (showEvents_withTimer d.emptied timer d.queue)

theorem ring_withTimer (d : Display) (timer : Timer) :
    (d.withTimer timer).ring = d.ring.withTimer timer := by
  unfold ring
  simp only
  rw [show (d.withTimer timer).phase = d.phase from rfl]
  split
  · exact congrArg Attempt.state (drain_withTimer { d with alarmSet := false } timer)
  · rfl

theorem act_ring (h : index < d.timer.alarms.length) :
    (d.act (.ring index)).state = d.ring.withTimer (d.timer.drop index) := by
  rw [← ring_withTimer, ← state_answerAlarm, act, if_pos (.inl h)]
  rfl

theorem ringTimes_eq_run {count : Nat} (h : d.timer.alarms.length = count) :
    ringTimes count (d.withTimer d.timer.clear) = d.run (List.replicate count (.ring 0)) := by
  induction count generalizing d with
  | zero =>
    have hclear : d.timer.clear = d.timer := by
      rw [Timer.clear, ← List.eq_nil_of_length_eq_zero h]
    rw [hclear]
    rfl
  | succ count ih =>
    have hsome : 0 < d.timer.alarms.length := h ▸ Nat.succ_pos count
    have hrest : (d.ring.withTimer (d.timer.drop 0)).timer.alarms.length = count := by
      show (d.timer.alarms.eraseIdx 0).length = count
      rw [List.length_eraseIdx_of_lt hsome, h, Nat.add_sub_cancel]
    -- An alarm that rings does not look at the timer, so it may leave the timer before or after.
    calc ringTimes (count + 1) (d.withTimer d.timer.clear)
        = ringTimes count (d.ring.withTimer d.timer.clear) := by rw [ringTimes, ring_withTimer]
      _ = (d.ring.withTimer (d.timer.drop 0)).run (List.replicate count (.ring 0)) := ih hrest
      _ = d.run (List.replicate (count + 1) (.ring 0)) := by
        rw [← act_ring hsome]
        rfl

/-- Alarms that ring together at a reading of the clock ring one after the other. -/
theorem atTime_eq_run (d : Display) (now : Int) :
    ∃ count, d.atTime now = d.run (.clock now :: List.replicate count (.ring 0)) := by
  unfold atTime
  simp only
  split
  · exact ⟨_, ringTimes_eq_run rfl⟩
  · exact ⟨0, rfl⟩

end Display

end ProgressDisplay
