import ProgressDisplay.Toml.DateTime

/-!
# Values

What may stand behind a key. Arrays and inline tables may be nested up to a limit. The pairs of an
inline table are handed on as they were written; whether they fit together is decided by the table
that they make up.
-/

namespace ProgressDisplay.Toml

/-- The keys that lead to a value, outermost first. -/
abbrev Path := List String

inductive Value where
  | string (content : String)
  | integer (number : Int)
  | boolean (value : Bool)
  | float
  | dateTime
  | array (items : List Value)
  /-- the pairs in the order in which they were written, each with its path and its last key -/
  | inline (pairs : List (Path × String × Value))

/-- Arrays, inline tables and keys may have fewer levels than this. -/
def levelLimit : Nat := 80

def isBareKeyChar (c : Char) : Bool :=
  isDigit c || ('a' ≤ c && c ≤ 'z') || ('A' ≤ c && c ≤ 'Z') || c = '-' || c = '_'

/-- One key, bare or quoted. -/
def simpleKey? (text : List Char) : Scanned String :=
  match text with
  | '"' :: _ => quotedOnLine? text
  | '\'' :: _ => quotedOnLine? text
  | _ =>
    let front := text.takeWhile isBareKeyChar
    if front = [] then none else some (String.ofList front, text.dropWhile isBareKeyChar)

/-- Keys with points between them, in at most so many steps. -/
def keys? : Nat → List Char → Scanned (List String)
  | 0, _ => none
  | steps + 1, text =>
    match simpleKey? (dropSpace text) with
    | none => none
    | some (key, rest) =>
      match dropSpace rest with
      | '.' :: rest => (keys? steps rest).map fun r => (key :: r.1, r.2)
      | rest => some ([key], rest)

/-- A key, which may name the tables that lead to it: the path to the last one, and the last
one. -/
def key? (text : List Char) : Scanned (Path × String) :=
  match keys? (levelLimit - 1) text with
  | none => none
  | some (keys, rest) => keys.getLast?.map fun last => ((keys.dropLast, last), rest)

/-- A pair of a key and a value of an inline table. -/
def pair (item : List Char → Scanned Value) (text : List Char) : Scanned (Path × String × Value) :=
  match key? text with
  | some ((path, key), '=' :: rest) =>
    (item (dropSpace rest)).map fun r => ((path, key, r.1), r.2)
  | _ => none

/-- The items of an array up to its closing bracket, in at most so many steps. -/
def items? (item : List Char → Scanned Value) : Nat → List Char → Scanned (List Value)
  | 0, _ => none
  | steps + 1, text =>
    match dropTrivia false text with
    | ']' :: rest => some ([], rest)
    | text =>
      match item text with
      | none => none
      | some (first, rest) =>
        match dropTrivia false rest with
        | ',' :: rest => (items? item steps rest).map fun r => (first :: r.1, r.2)
        | ']' :: rest => some ([first], rest)
        | _ => none

/-- The pairs of an inline table that is not empty, up to its closing brace, in at most so many
steps. -/
def pairs? (item : List Char → Scanned Value) :
    Nat → List Char → Scanned (List (Path × String × Value))
  | 0, _ => none
  | steps + 1, text =>
    match pair item text with
    | none => none
    | some (first, rest) =>
      match dropSpace rest with
      | ',' :: rest => (pairs? item steps rest).map fun r => (first :: r.1, r.2)
      | '}' :: rest => some ([first], rest)
      | _ => none

/-- A value that is no array and no inline table. -/
def scalar? (text : List Char) : Scanned Value :=
  match text with
  | 't' :: 'r' :: 'u' :: 'e' :: rest => some (.boolean true, rest)
  | 'f' :: 'a' :: 'l' :: 's' :: 'e' :: rest => some (.boolean false, rest)
  | '"' :: _ | '\'' :: _ => (quoted? text).map fun r => (.string r.1, r.2)
  | _ =>
    match dateTime? text with
    | some rest => some (.dateTime, rest)
    | none =>
      match float? text with
      | some rest => some (.float, rest)
      | none => (integer? text).map fun r => (.integer r.1, r.2)

/-- A value with so many levels of arrays and inline tables left. -/
def value? : Nat → List Char → Scanned Value
  | levels, '[' :: rest =>
    match levels with
    | 0 => none
    | levels + 1 => (items? (value? levels) (rest.length + 1) rest).map fun r => (.array r.1, r.2)
  | levels, '{' :: rest =>
    match levels with
    | 0 => none
    | levels + 1 =>
      match dropSpace rest with
      | '}' :: rest => some (.inline [], rest)
      | _ => (pairs? (value? levels) (rest.length + 1) rest).map fun r => (.inline r.1, r.2)
  | _, text => scalar? text

end ProgressDisplay.Toml
