import ProgressDisplay.Live.DisplayError
import ProgressDisplay.Live.Timer
import ProgressDisplay.Operations.Tracker
import ProgressDisplay.Regions.Page

/-!
# The live display

A `Display` turns the stream of events into redraws, not more often than its throttle allows.
Events wait in a queue. An event that comes when the last redraw is old enough makes the queue be
applied and drawn at once; otherwise an alarm is set that does so later, one at a time. A display
whose output is not a terminal shows no progress at all and only passes output on.

* `drain_of_stopped`, `drain_of_empty`: where a drain does nothing.
-/

namespace ProgressDisplay

inductive Phase where
  | running
  /-- the last event was seen, or the display was closed -/
  | ended
  /-- a redraw failed, and nothing is shown any more -/
  | stopped
  deriving DecidableEq, Repr

structure Display where
  page : Page
  tracker : Tracker
  present : LineAssignment.Presentation := Operation.present
  /-- the columns of the terminal, if they are known -/
  columns : Option Nat
  /-- whether the output is a terminal -/
  interactive : Bool
  timer : Timer := {}
  /-- the clock's reading, in milliseconds -/
  now : Int := 0
  queue : List Event := []
  /-- when the queue was last applied -/
  lastDrain : Option Int := none
  /-- whether an alarm has been set that has not rung -/
  alarmSet : Bool := false
  /-- the least time between two redraws that events cause, in milliseconds -/
  throttle : Nat
  phase : Phase := .running

namespace Display

/-- The throttle of a display that is given none. -/
def defaultThrottle : Nat := 85

/-- A display on a page. Where the output is no terminal, the block is hidden at once. -/
def start (page : Page) (interactive : Bool) (columns : Option Nat)
    (throttle : Nat := defaultThrottle) : Display where
  page := if interactive then page else page.setVisible false
  tracker := .ofLines page.block.workers.length
  columns
  interactive
  throttle

/-- The display with another page. -/
def withPage (d : Display) (page : Page) : Display := { d with page }

/-- Puts what the tracker says on the lines of the block, without drawing it. -/
def compose (d : Display) : Display :=
  let workers := d.tracker.lines.contents d.tracker.forest d.present d.columns
  let headline := d.tracker.headline.content d.columns
  let block := d.page.block.setWorkers workers
  d.withPage { d.page with
    block := match headline with
      | some content => block.setLine 0 content
      | none => block }

/-- Redraws the block and flushes the device. -/
def redraw (d : Display) : Attempt DisplayError Display :=
  (d.page.flush.map d.withPage).mapFailure .device

/-- Applies events and draws the result. Nothing is drawn if an event contradicts the others. -/
def showEvents (d : Display) (events : List Event) : Attempt DisplayError Display :=
  match Tracker.applyAll events d.tracker with
  | (tracker, some (e, violation)) => ⟨{ d with tracker }, some (.event e violation)⟩
  | (tracker, none) => ({ d with tracker }).compose.redraw

/-- Stops the display if an attempt failed. -/
def stopOnFailure (a : Attempt DisplayError Display) : Attempt DisplayError Display :=
  match a.failure with
  | none => a
  | some _ => a.map fun d => { d with phase := .stopped }

/-- Applies and draws the events that wait. -/
def drain (d : Display) : Attempt DisplayError Display :=
  if d.phase = .stopped then ⟨d, some .stopped⟩
  else if d.queue = [] then .done d
  else
    stopOnFailure <|
      ({ d with queue := [], lastDrain := some d.now }).showEvents d.queue

/-- Ends a display that still runs. -/
def finish (d : Display) : Display := if d.phase = .running then { d with phase := .ended } else d

/-- Stops the timer. -/
def stopTimer (d : Display) : Display := { d with timer := d.timer.stop }

/-- Puts an event into the queue. -/
def enqueue (d : Display) (e : Event) : Display := { d with queue := d.queue ++ [e] }

/-- Whether the last redraw is old enough for another. -/
def due (d : Display) : Bool :=
  match d.lastDrain with
  | none => true
  | some last => d.throttle ≤ (d.now - last).toNat

/-- Sets the alarm for a redraw. -/
def schedule (d : Display) : Display :=
  { d with alarmSet := true, timer := d.timer.set ⟨d.now, d.throttle⟩ }

/-- Accepts an event of a display that runs. -/
def acceptRunning (d : Display) (e : Event) : Attempt DisplayError Display :=
  if e = .endOfOutput then (d.enqueue e).drain.map fun d => d.finish.stopTimer
  else
    let d := d.enqueue e
    if d.alarmSet then .done d
    else if d.due then d.drain
    else .done d.schedule

/-- Accepts an event. -/
def accept (d : Display) (e : Event) : Attempt DisplayError Display :=
  if d.interactive then
    match d.phase with
    | .running => d.acceptRunning e
    | .stopped => .done (if e = .endOfOutput then d.stopTimer else d)
    | .ended => ⟨d, some (.event e .afterEnd)⟩
  else .done d

/-- Draws what there is to draw, without waiting. -/
def flush (d : Display) : Attempt DisplayError Display :=
  if d.interactive then
    if d.queue = [] ∧ d.phase ≠ .stopped then d.redraw else d.drain
  else .done d

/-- Shows or hides the block from the next redraw on. -/
def setVisible (d : Display) (visible : Bool) : Display :=
  if d.interactive then d.withPage (d.page.setVisible visible) else d

/-- Draws what waits, and then takes the block off the screen. -/
def close (d : Display) : Attempt DisplayError Display :=
  if d.interactive then
    let drained := if d.phase = .running then d.stopTimer.drain else .done d.stopTimer
    let d := drained.state.finish
    let closed := (d.page.close.map d.withPage).mapFailure .device
    match closed.failure with
    | some _ => closed
    | none => { closed with failure := drained.failure }
  else .done d

/-- Flushes the device and draws nothing. -/
def flushDevice (d : Display) : Attempt DisplayError Display :=
  (d.page.flushDevice.map d.withPage).mapFailure .device

/-- Writes output above the block. -/
def output (d : Display) (requests : List OutputRequest) : Attempt DisplayError Display :=
  ((d.page.outputAll requests).map d.withPage).mapFailure .device |>.andThen fun d =>
    if d.interactive then d.redraw else d.flushDevice

/-- What an alarm does when it rings. A failure stops the display and is not reported. -/
def ring (d : Display) : Display :=
  let d := { d with alarmSet := false }
  if d.phase = .running then d.drain.state else d

/-- Lets a number of alarms ring. -/
def ringTimes : Nat → Display → Display
  | 0, d => d
  | n + 1, d => ringTimes n d.ring

/-- Lets all alarms ring. -/
def ringAll (d : Display) : Display :=
  ringTimes d.timer.alarms.length { d with timer := d.timer.clear }

/-- The display at a reading of the clock, with all alarms rung if one has come due. -/
def atTime (d : Display) (now : Int) : Display :=
  let d := { d with now }
  if d.timer.isDue now then d.ringAll else d

/-- The number of running operations. -/
def activeOperations (d : Display) : Nat := d.tracker.forest.size

theorem drain_of_stopped {d : Display} (h : d.phase = .stopped) :
    d.drain = ⟨d, some .stopped⟩ := by
  simp [drain, h]

theorem drain_of_empty {d : Display} (hp : d.phase ≠ .stopped) (hq : d.queue = []) :
    d.drain = .done d := by
  simp [drain, hp, hq]

end Display

end ProgressDisplay
