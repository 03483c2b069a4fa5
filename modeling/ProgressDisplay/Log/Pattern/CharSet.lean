import ProgressDisplay.Log.Pattern.Element

/-!
# Sets of characters in patterns

A set stands between brackets. It holds characters, ranges of them, kinds of characters and other
sets, and what stands on both sides of an operator is combined. Reading a set gives how deep it is
nested.

* `nesting_singleton`: what stands alone is not nested.
-/

namespace ProgressDisplay.Log.Pattern

/-- How deep parts are nested together, given how deep each of them is. -/
def nesting : List Nat → Nat
  | [] => 0
  | [depth] => depth
  | depth :: depths => depths.foldl max depth + 1

theorem nesting_singleton (depth : Nat) : nesting [depth] = depth := rfl

/-- What has been read of a set: how deep the parts are nested that stand before the last operator,
if there is one, and those behind it. -/
structure CharSet where
  combined : Option Nat := none
  parts : List Nat := []
  /-- Nothing but hyphens has been read, so a hyphen or a closing bracket can stand for itself. -/
  atStart : Bool := true
  deriving DecidableEq, Repr

namespace CharSet

def add (s : CharSet) (depth : Nat) : CharSet := { s with parts := depth :: s.parts }

def depth (s : CharSet) : Nat :=
  match s.combined with
  | none => nesting s.parts
  | some combined => max combined (nesting s.parts) + 1

/-- Reads an operator. -/
def combine (s : CharSet) : CharSet := { combined := some s.depth, atStart := false }

/-- The names of kinds of characters within colons. -/
def kindNames : List String :=
  ["alnum", "alpha", "ascii", "blank", "cntrl", "digit", "graph", "lower", "print", "punct",
    "space", "upper", "word", "xdigit"]

/-- Reads a kind of characters, from behind the bracket: whether all but these are meant, and what
follows. -/
def kind? : List Char → Option (Bool × List Char)
  | ':' :: text =>
    let negated := text.head? = some '^'
    let text := if negated then text.tail else text
    match text.dropWhile (· ≠ ':') with
    | ':' :: ']' :: rest =>
      if kindNames.contains (String.ofList (text.takeWhile (· ≠ ':'))) then some (negated, rest)
      else none
    | _ => none
  | _ => none

/-- Whether a set may hold a kind of ASCII characters. -/
def allowsKind (m : Mode) (negated : Bool) : Bool :=
  if m.unicode then !m.ignoresCase else !negated

/-- Reads the opening of a set, from behind the bracket. All but the characters of a set may be
meant also without regard to case: such a set can be built of empty sets only, so it is empty or
full, and case changes neither. -/
def open? (m : Mode) (text : List Char) : Option (List Char) :=
  match m.skip text with
  | '^' :: rest => if m.allowsRest then some (m.skip rest) else none
  | rest => some rest

/-- Reads an element of a set. -/
def element? (m : Mode) (text : List Char) : Option (Element × List Char) :=
  let read := match text with
    | [] => none
    | '\\' :: rest => Element.escaped? m rest
    | c :: rest => some (.char c false, rest)
  read.filter fun r => r.1.isAllowedInSet m

/-- Reads an element of a set or a range between two characters. -/
def range? (m : Mode) (text : List Char) : Option (List Char) :=
  match element? m text with
  | none => none
  | some (first, rest) =>
    match m.skip rest with
    | '-' :: behind =>
      if m.next? behind = some ']' ∨ m.next? behind = some '-' then some ('-' :: behind)
      else
        match first, element? m (m.skip behind) with
        | .char low _, some (.char high _, rest) => if low ≤ high then some rest else none
        | _, _ => none
    | rest => some rest

/-- A step in reading a set. -/
inductive Step where
  | go (s : CharSet) (text : List Char)
  | enter (text : List Char)
  | leave (text : List Char)

/-- Reads the next part of a set that has been opened. -/
def step? (m : Mode) (s : CharSet) (text : List Char) : Option Step :=
  let single (text : List Char) : Option Step :=
    (range? m text).map fun rest => .go ({ s with atStart := false }.add 0) rest
  match m.skip text with
  | [] => none
  | c :: rest =>
    if s.atStart && (c = '-' || (c = ']' && s.parts.isEmpty)) then
      if m.allowsChar true c then some (.go ({ s with atStart := c = '-' }.add 0) rest) else none
    else
      match c, rest with
      | '[', _ =>
        match kind? rest with
        | some (negated, rest) =>
          if allowsKind m negated then some (.go ({ s with atStart := false }.add 0) rest) else none
        | none => (open? m rest).map .enter
      | ']', _ => some (.leave rest)
      | '&', '&' :: rest => some (.go s.combine rest)
      | '-', '-' :: rest => some (.go s.combine rest)
      | '~', '~' :: rest => some (.go s.combine rest)
      | _, _ => single (c :: rest)

/-- Reads the rest of a set within other sets, the innermost first, in at most `fuel` steps. -/
def close? (m : Mode) : Nat → List CharSet → CharSet → List Char → Option (Nat × List Char)
  | 0, _, _, _ => none
  | fuel + 1, outer, s, text =>
    match step? m s text with
    | none => none
    | some (.go s rest) => close? m fuel outer s rest
    | some (.enter rest) => close? m fuel ({ s with atStart := false } :: outer) {} rest
    | some (.leave rest) =>
      match outer with
      | [] => some (s.depth + 1, rest)
      | around :: outer => close? m fuel outer (around.add (s.depth + 1)) rest

/-- Reads a set, from behind the opening bracket: how deep it is nested, and what follows. -/
def read? (m : Mode) (text : List Char) : Option (Nat × List Char) :=
  match open? m text with
  | none => none
  | some rest => close? m (text.length + 1) [] {} rest

end CharSet

end ProgressDisplay.Log.Pattern
