import ProgressDisplay.Log.Pattern.CharSet
import ProgressDisplay.Text.Alphanumeric

/-!
# Patterns

A pattern is a regular expression that values of data are compared with. No record has a span whose
data it could be compared with, so all that matters of a pattern is whether it can be read:
whether its groups and sets are closed, its operators have something to apply to, its escapes are
known, and it asks for nothing that cannot be matched. It stands within braces, between commas and
behind an equals sign, so it holds no closing brace, and an opening one begins nothing.

* `isPattern_nil`: the empty pattern can be read.
* `repeatLast?_eq_none_iff`: an operator of repetition needs something to repeat.
* `closeGroup?_eq_none_iff`: a closing parenthesis needs an open group.
-/

namespace ProgressDisplay.Log.Pattern

/-- A part of a pattern: how deep it is nested, and whether it can be repeated. A change of flags
cannot. -/
structure Part where
  depth : Nat
  isRepeatable : Bool := true
  deriving DecidableEq, Repr

/-- What has been read of a group: how deep its finished alternatives are nested, and the parts of
the one being read, the last first. -/
structure Group where
  alternatives : List Nat := []
  parts : List Part := []
  /-- the mode around the group -/
  around : Mode := {}
  deriving DecidableEq, Repr

namespace Group

def add (g : Group) (part : Part) : Group := { g with parts := part :: g.parts }

/-- Begins another alternative. -/
def alternate (g : Group) : Group :=
  { g with alternatives := nesting (g.parts.map Part.depth) :: g.alternatives, parts := [] }

def depth (g : Group) : Nat := nesting g.alternate.alternatives

end Group

/-- What has been read of a pattern: the innermost open group, which may be the pattern itself, and
those around it. -/
structure Reading where
  mode : Mode := {}
  group : Group := {}
  outer : List Group := []
  /-- the names of groups -/
  names : List (List Char) := []
  deriving DecidableEq, Repr

namespace Reading

def add (r : Reading) (part : Part) : Reading := { r with group := r.group.add part }

/-- Repeats the last part. -/
def repeatLast? (r : Reading) : Option Reading :=
  match r.group.parts with
  | [] => none
  | part :: parts =>
    if part.isRepeatable then
      some { r with group := { r.group with parts := ⟨part.depth + 1, true⟩ :: parts } }
    else none

def alternate (r : Reading) : Reading := { r with group := r.group.alternate }

/-- Opens a group that is read in a mode. -/
def openGroup (r : Reading) (mode : Mode) : Reading :=
  { r with mode, group := { around := r.mode }, outer := r.group :: r.outer }

/-- Closes the innermost group and returns to the mode around it. -/
def closeGroup? (r : Reading) : Option Reading :=
  match r.outer with
  | [] => none
  | group :: outer =>
    some { r with mode := r.group.around, group := group.add ⟨r.group.depth + 1, true⟩, outer }

/-- Names a group. No two groups have one name. -/
def withName? (r : Reading) (name : List Char) : Option Reading :=
  if r.names.contains name then none else some { r with names := name :: r.names }

/-- How deep a pattern may be nested. -/
def depthLimit : Nat := 250

/-- Whether a pattern may end. -/
def isWhole (r : Reading) : Bool := r.outer.isEmpty && r.group.depth ≤ depthLimit

/-- Whether a text can name a group. -/
def isName : List Char → Bool
  | [] => false
  | c :: rest =>
    (c = '_' || Text.isAlphabetic c) &&
      rest.all fun c => ['_', '.', '[', ']'].contains c || Text.isAlphanumeric c

/-- Opens a group with a name, from behind the angle bracket. -/
def openNamed? (r : Reading) (text : List Char) : Option (Reading × List Char) :=
  let name := text.takeWhile (· ≠ '>')
  match text.dropWhile (· ≠ '>') with
  | '>' :: rest =>
    if isName name then (r.withName? name).map fun r => (r.openGroup r.mode, rest) else none
  | _ => none

/-- Changes flags, for a group of its own or for what follows. -/
def flags? (r : Reading) (text : List Char) : Option (Reading × List Char) :=
  let inFlags c := c ≠ ':' && c ≠ ')'
  let flags := text.takeWhile inFlags
  match r.mode.withFlags? flags, text.dropWhile inFlags with
  | some mode, ':' :: rest => some (r.openGroup mode, rest)
  | some mode, ')' :: rest =>
    if flags.isEmpty then none else some ({ r with mode }.add ⟨0, false⟩, rest)
  | _, _ => none

/-- Opens a group, or changes flags, from behind the opening parenthesis. -/
def open? (r : Reading) (text : List Char) : Option (Reading × List Char) :=
  match r.mode.skip text with
  | '?' :: 'P' :: '<' :: rest => r.openNamed? rest
  | '?' :: '<' :: rest => r.openNamed? rest
  | '?' :: rest => r.flags? rest
  | rest => some (r.openGroup r.mode, rest)

/-- Reads an element. -/
def element? (r : Reading) (c : Char) (rest : List Char) : Option (Reading × List Char) :=
  let read := match c with
    | '\\' => Element.escaped? r.mode rest
    | '.' => some (.any, rest)
    | '^' => some (.edge, rest)
    | '$' => some (.edge, rest)
    | c => some (.char c false, rest)
  (read.filter fun e => e.1.isAllowed r.mode).map fun e => (r.add ⟨0, true⟩, e.2)

/-- What follows an operator of repetition. A question mark there is part of it. -/
def afterRepetition : List Char → List Char
  | '?' :: rest => rest
  | rest => rest

/-- Reads what begins with a character. -/
def step? (r : Reading) (c : Char) (rest : List Char) : Option (Reading × List Char) :=
  match c with
  | '(' => r.open? rest
  | ')' => r.closeGroup?.map (·, rest)
  | '|' => some (r.alternate, rest)
  | '[' => (CharSet.read? r.mode rest).map fun s => (r.add ⟨s.1, true⟩, s.2)
  | '{' => none
  | '?' => r.repeatLast?.map (·, afterRepetition rest)
  | '*' => r.repeatLast?.map (·, afterRepetition rest)
  | '+' => r.repeatLast?.map (·, afterRepetition rest)
  | c => r.element? c rest

/-- Reads the rest of a pattern in at most `fuel` steps. -/
def finish? : Nat → Reading → List Char → Option Reading
  | 0, _, _ => none
  | fuel + 1, r, text =>
    match r.mode.skip text with
    | [] => some r
    | c :: rest =>
      match r.step? c rest with
      | none => none
      | some (r, rest) => finish? fuel r rest

theorem repeatLast?_eq_none_iff (r : Reading) :
    r.repeatLast? = none ↔ ∀ part, r.group.parts.head? = some part → part.isRepeatable = false := by
  unfold repeatLast?
  cases r.group.parts with
  | nil => simp
  | cons part parts => cases h : part.isRepeatable <;> simp [h]

theorem closeGroup?_eq_none_iff (r : Reading) : r.closeGroup? = none ↔ r.outer = [] := by
  unfold closeGroup?
  split
  · rename_i h
    simp [h]
  · rename_i h
    simp [h]

end Reading

end Pattern

/-- Whether a text is a pattern that can be read. Every step of reading takes a character. -/
def isPattern (text : List Char) : Bool :=
  (Pattern.Reading.finish? (text.length + 1) {} text).any Pattern.Reading.isWhole

theorem isPattern_nil : isPattern [] = true := rfl

end ProgressDisplay.Log
