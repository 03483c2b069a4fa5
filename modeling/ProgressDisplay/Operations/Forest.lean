import ProgressDisplay.Operations.Protocol
import ProgressDisplay.Operations.Table

/-!
# The forest of running operations

A `Forest` holds the running operations. A parent is named by its id and must be running when the
child starts; an operation cannot complete while one of its children runs. A refused change leaves
the forest as it is, because the result of a refusal holds none.

* `start_eq_error_iff`, `complete_eq_error_iff`: exactly when a start or a completion is refused.
-/

namespace ProgressDisplay

structure Operation where
  id : OperationId
  parent : Option OperationId
  description : String
  status : String
  /-- children started and not completed -/
  runningChildren : Nat := 0
  deriving DecidableEq, Repr

/-- The running operations by their ids. -/
structure Forest where
  operations : Table Operation := .empty

namespace Forest

def empty : Forest := {}

def get? (f : Forest) (id : OperationId) : Option Operation := f.operations.get? id

def contains (f : Forest) (id : OperationId) : Bool := (f.get? id).isSome

/-- The number of running operations. -/
def size (f : Forest) : Nat := f.operations.size

/-- The forest with one operation added or replaced. -/
def insert (f : Forest) (o : Operation) : Forest := ⟨f.operations.insert o.id o⟩

/-- The forest with an operation changed. -/
def modify (f : Forest) (id : OperationId) (g : Operation → Operation) : Forest :=
  ⟨f.operations.modify id g⟩

def erase (f : Forest) (id : OperationId) : Forest := ⟨f.operations.erase id⟩

/-- The forest with one more running child counted at an operation. -/
def addChild (f : Forest) (id : OperationId) : Forest :=
  f.modify id fun o => { o with runningChildren := o.runningChildren + 1 }

/-- The forest with one running child less counted at an operation. -/
def removeChild (f : Forest) (id : OperationId) : Forest :=
  f.modify id fun o => { o with runningChildren := o.runningChildren - 1 }

/-- Starts an operation. -/
def start (f : Forest) (id : OperationId) (parent : Option OperationId)
    (description status : String) : Except ProtocolViolation (Operation × Forest) :=
  if f.contains id then .error (.alreadyStarted id)
  else
    let operation : Operation := { id, parent, description, status }
    match parent with
    | none => .ok (operation, f.insert operation)
    | some p =>
      if f.contains p then .ok (operation, (f.addChild p).insert operation)
      else .error (.parentNotRunning id p)

/-- Sets the status of a running operation. -/
def progress (f : Forest) (id : OperationId) (status : String) :
    Except ProtocolViolation (Operation × Forest) :=
  match f.get? id with
  | none => .error (.notRunning id)
  | some o => .ok ({ o with status }, f.modify id fun o => { o with status })

/-- Ends a running operation that has no running child. -/
def complete (f : Forest) (id : OperationId) :
    Except ProtocolViolation (Operation × Forest) :=
  match f.get? id with
  | none => .error (.notRunning id)
  | some o =>
    if 0 < o.runningChildren then .error (.childrenRunning id o.runningChildren)
    else
      match o.parent with
      | none => .ok (o, f.erase id)
      | some p => .ok (o, (f.erase id).removeChild p)

/-- The parent of a running operation. -/
def parentOf (f : Forest) (id : OperationId) : Option OperationId :=
  (f.get? id).bind Operation.parent

theorem start_eq_error_iff {f : Forest} {id : OperationId} {parent : Option OperationId}
    {description status : String} {e : ProtocolViolation} :
    f.start id parent description status = .error e ↔
      (f.contains id = true ∧ .alreadyStarted id = e) ∨
      (f.contains id = false ∧ ∃ p, parent = some p ∧ f.contains p = false ∧
        .parentNotRunning id p = e) := by
  unfold start
  cases hid : f.contains id
  · cases parent with
    | none => simp
    | some p => cases hp : f.contains p <;> simp [hp]
  · simp

theorem complete_eq_error_iff {f : Forest} {id : OperationId} {e : ProtocolViolation} :
    f.complete id = .error e ↔
      (f.get? id = none ∧ .notRunning id = e) ∨
      (∃ o, f.get? id = some o ∧ 0 < o.runningChildren ∧
        .childrenRunning id o.runningChildren = e) := by
  unfold complete
  cases hid : f.get? id with
  | none => simp
  | some o =>
    by_cases h : 0 < o.runningChildren
    · simp [h]
    · cases hp : o.parent <;> simp [h, hp]

end Forest

end ProgressDisplay
