import ProgressDisplay.Operations.Protocol
import ProgressDisplay.Screen.Device

/-!
# Failures of the display

What can go wrong when events are shown, and the words in which it is reported.
-/

namespace ProgressDisplay

inductive DisplayError where
  /-- an event contradicts the events before it -/
  | event (event : Event) (violation : ProtocolViolation)
  | device (failure : DeviceFailure)
  /-- the display has stopped after an earlier failure -/
  | stopped
  deriving DecidableEq, Repr

namespace DisplayError

def message : DisplayError → String
  | event e _ => "Unable to process incoming event '" ++ e.describe ++ "' (" ++ e.kind ++ ")"
  | device failure => "Failed to write to terminal: " ++ failure.reason
  | stopped => "Progress display stopped after an earlier failure"

/-- The message of what caused the failure. -/
def cause? : DisplayError → Option String
  | event _ violation => some violation.message
  | device failure => some failure.reason
  | stopped => none

end DisplayError

end ProgressDisplay
