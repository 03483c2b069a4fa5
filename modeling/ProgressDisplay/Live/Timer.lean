/-!
# The timer

A `Timer` holds the alarms that were set and have not rung. Once it is shut down it holds none and
takes no more.

* `sum_split`: a span of time is split without loss.
-/

namespace ProgressDisplay

/-- An alarm, by the delay it was set for and the clock's reading at that moment. -/
structure Alarm where
  setAt : Int
  delay : Nat
  deriving DecidableEq, Repr

/-- The clock's reading at which an alarm is due. -/
def Alarm.due (a : Alarm) : Int := a.setAt + a.delay

structure Timer where
  alarms : List Alarm := []
  shutDown : Bool := false
  deriving DecidableEq, Repr

namespace Timer

/-- Sets an alarm, unless the timer is shut down. -/
def set (t : Timer) (alarm : Alarm) : Timer :=
  if t.shutDown then t else { t with alarms := t.alarms ++ [alarm] }

/-- Drops all alarms and refuses new ones. -/
def stop (_ : Timer) : Timer := { alarms := [], shutDown := true }

/-- The timer after all of its alarms have rung. -/
def clear (t : Timer) : Timer := { t with alarms := [] }

/-- Whether an alarm has come due. -/
def isDue (t : Timer) (now : Int) : Bool := t.alarms.any fun a => decide (a.due ≤ now)

/-- How long it takes until the next alarm is due. -/
def wait? (t : Timer) (now : Int) : Option Nat := (t.alarms.map fun a => (a.due - now).toNat).min?

/-- The parts of a span of time before and after the moment at which the next alarm is due. -/
def split (t : Timer) (now : Int) (span : Nat) : List Nat :=
  match t.wait? now with
  | some wait => if wait < span then [wait, span - wait] else [span]
  | none => [span]

theorem sum_split (t : Timer) (now : Int) (span : Nat) :
    (t.split now span).foldr Nat.add 0 = span := by
  unfold split
  split
  · split
    · simp only [List.foldr_cons, List.foldr_nil, Nat.add_eq]
      omega
    · simp
  · simp

end Timer

end ProgressDisplay
