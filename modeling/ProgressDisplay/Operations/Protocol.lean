/-!
# Progress events

The stream of events that a build sends to the display. Operations are named by numbers and form a
forest: each may name an operation that is already running as its parent.
-/

namespace ProgressDisplay

/-- The number that identifies a running operation. -/
abbrev OperationId := Nat

inductive Event where
  | start (id : OperationId) (parent : Option OperationId) (description status : String)
  | progress (id : OperationId) (status : String)
  | complete (id : OperationId)
  /-- no more events follow -/
  | endOfOutput
  deriving DecidableEq, Repr

namespace Event

/-- The name of the kind of event in error reports. -/
def kind : Event → String
  | start .. => "ProgressStartEvent"
  | progress .. => "ProgressEvent"
  | complete .. => "ProgressCompleteEvent"
  | endOfOutput => "EndOutputEvent"

def operation? : Event → Option OperationId
  | start id _ _ _ => some id
  | progress id _ => some id
  | complete id => some id
  | endOfOutput => none

/-- An operation's name in messages. -/
def name (id : OperationId) : String := "#" ++ Nat.repr id

/-- The event in error reports. -/
def describe : Event → String
  | start id none description _ => "start " ++ name id ++ " '" ++ description ++ "'"
  | start id (some parent) description _ =>
    "start " ++ name id ++ " '" ++ description ++ "' under " ++ name parent
  | progress id status => "progress " ++ name id ++ " '" ++ status ++ "'"
  | complete id => "complete " ++ name id
  | endOfOutput => "end"

end Event

/-- An event that contradicts the events before it. -/
inductive ProtocolViolation where
  | alreadyStarted (id : OperationId)
  | parentNotRunning (id parent : OperationId)
  | notRunning (id : OperationId)
  | childrenRunning (id : OperationId) (children : Nat)
  | afterEnd
  deriving DecidableEq, Repr

def ProtocolViolation.message : ProtocolViolation → String
  | alreadyStarted id => "operation " ++ Event.name id ++ " was already started"
  | parentNotRunning id parent =>
    "operation " ++ Event.name id ++ " names parent " ++ Event.name parent ++
      ", which is not running"
  | notRunning id => "operation " ++ Event.name id ++ " is not running"
  | childrenRunning id children =>
    "operation " ++ Event.name id ++ " completed while " ++ Nat.repr children ++
      " child operation(s) are still running"
  | afterEnd => "event received after the end of output"

end ProgressDisplay
