import ProgressDisplay.Operations.Forest
import ProgressDisplay.Style.Line

/-!
# Assigning worker lines to operations

There are fewer worker lines than running operations, so it has to be decided which operations are
seen:

* an operation that starts takes over the line of its parent, if the parent holds one; the parent
  is then shadowed until that child completes, when it gets a line back;
* otherwise it takes a free line;
* otherwise it waits, first come first served, for the next line that comes free.
-/

namespace ProgressDisplay

/-- Worker lines are numbered from the top. -/
abbrev LineId := Nat

structure LineAssignment where
  /-- the free lines, the next to be handed out first -/
  free : List LineId
  /-- the line that an operation holds -/
  lineOf : Table LineId := .empty
  /-- the operation that holds each line -/
  owners : List (Option OperationId)
  /-- for each operation whose line was taken over, the children that did so and still run -/
  shadows : Table (List OperationId) := .empty
  /-- the operations without a line that nobody shadows, oldest first -/
  waiting : List OperationId := []

namespace LineAssignment

/-- A number of lines, all free. -/
def ofLines (count : Nat) : LineAssignment where
  free := List.range count
  owners := List.replicate count none

/-- The operation that holds a line. -/
def ownerOf (a : LineAssignment) (line : LineId) : Option OperationId :=
  (a.owners[line]?).join

/-- Whether a child took over the operation's line and still runs. -/
def isShadowed (a : LineAssignment) (id : OperationId) : Bool := a.shadows.contains id

/-- Gives a line to an operation. A previous owner loses it. -/
def give (a : LineAssignment) (id : OperationId) (line : LineId) : LineAssignment :=
  let lineOf :=
    match a.ownerOf line with
    | some previous => a.lineOf.erase previous
    | none => a.lineOf
  { a with owners := a.owners.set line (some id), lineOf := lineOf.insert id line }

/-- Notes that a child shadows its parent. -/
def addShadow (a : LineAssignment) (parent child : OperationId) : LineAssignment :=
  let children := (a.shadows.get? parent).getD []
  { a with
    shadows := a.shadows.insert parent
      (if children.contains child then children else children ++ [child]) }

/-- Notes that a child shadows its parent no more. -/
def removeShadow (a : LineAssignment) (parent child : OperationId) : LineAssignment :=
  match a.shadows.get? parent with
  | none => a
  | some children =>
    let left := children.filter (· != child)
    { a with
      shadows := if left.isEmpty then a.shadows.erase parent else a.shadows.insert parent left }

/-- Whether a child is among those that took over the parent's line. -/
def shadowedBy (a : LineAssignment) (parent child : OperationId) : Bool :=
  ((a.shadows.get? parent).getD []).contains child

/-- Takes the next free line, or waits for one. -/
def takeFree (a : LineAssignment) (id : OperationId) : LineAssignment :=
  match a.free with
  | line :: free => { a with free }.give id line
  | [] => { a with waiting := a.waiting ++ [id] }

/-- Finds a line for an operation with a given parent. -/
def placeUnder (a : LineAssignment) (id : OperationId) (parent : Option OperationId) :
    LineAssignment :=
  match parent.bind fun p => (a.lineOf.get? p).map fun line => (p, line) with
  | some (p, line) => ({ a with lineOf := a.lineOf.erase p }.addShadow p id).give id line
  | none => a.takeFree id

/-- Finds a line for an operation that has just started. -/
def place (a : LineAssignment) (o : Operation) : LineAssignment := a.placeUnder o.id o.parent

/-- Hands free lines to waiting operations, as long as there are both. -/
def handOut (a : LineAssignment) : List LineId → List OperationId → LineAssignment
  | line :: free, id :: waiting => (a.give id line).handOut free waiting
  | free, waiting => { a with free, waiting }

/-- Hands the free lines to the operations that have waited longest. -/
def fill (a : LineAssignment) : LineAssignment := a.handOut a.free a.waiting

/-- Takes back the line of an operation. -/
def release (a : LineAssignment) (id : OperationId) (line : LineId) : LineAssignment :=
  { a with
    lineOf := a.lineOf.erase id
    owners := a.owners.set line none
    free := line :: a.free }

/-- Takes back what a completed operation held. A parent that it shadowed gets a line back, before
anyone who waits. The forest is the one without the operation. -/
def retire (a : LineAssignment) (o : Operation) (f : Forest) : LineAssignment :=
  let a : LineAssignment := { a with shadows := a.shadows.erase o.id }
  let shadowed := o.parent.filter fun p => a.shadowedBy p o.id
  let a := match o.parent with
    | some p => a.removeShadow p o.id
    | none => a
  match a.lineOf.get? o.id with
  | none => { a with waiting := a.waiting.filter (· != o.id) }
  | some line =>
    let a := a.release o.id line
    let a := match shadowed with
      | some p => a.placeUnder p (f.parentOf p)
      | none => a
    a.fill

/-- How an operation is shown on its line. -/
abbrev Presentation := Operation → Line

/-- What stands on each line: the operation that holds it, cut to the terminal. -/
def contents (a : LineAssignment) (f : Forest) (present : Presentation) (columns : Option Nat) :
    List Line :=
  a.owners.map fun owner =>
    match owner.bind f.get? with
    | some o => Line.fitColumns columns (present o)
    | none => []

end LineAssignment

/-- The description, and the status after a blank if there is one. -/
def Operation.present (o : Operation) : Line :=
  let description : Span := ⟨.of .description, o.description⟩
  if o.status = "" then [description]
  else [description, Span.plain " ", ⟨.of .progressStatus, o.status⟩]

end ProgressDisplay
