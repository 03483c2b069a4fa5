import ProgressDisplay.Toml.Table

/-!
# Documents

A document is read line by line into statements, which then build its table. Text that is no
document has no table; what is wrong with it is not reported.

* `applyAll_append`: statements may be carried out in two parts.
-/

namespace ProgressDisplay.Toml

/-- What a line of a document says. -/
inductive Statement where
  | pair (path : Path) (key : String) (value : Value)
  /-- the header of a table -/
  | table (path : Path) (key : String)
  /-- the header of one of several tables -/
  | nextTable (path : Path) (key : String)

/-- A document as far as it was read: its entries, and the path to the table that is open. -/
structure Document where
  entries : Entries := []
  current : Path := []

namespace Document

/-- Carries out a statement. -/
def apply (d : Document) : Statement → Option Document
  | .pair path key v =>
    if v.consistent then
      (Entries.changeAt .onTheWay (fun origin entries => entries.definePair path key v origin)
        d.current .header d.entries).map fun entries => { d with entries }
    else none
  | .table path key =>
    (Entries.changeAt .onTheWay (fun _ entries => entries.openTable key) path .header
      d.entries).map fun entries => ⟨entries, path ++ [key]⟩
  | .nextTable path key =>
    (Entries.changeAt .onTheWay (fun _ entries => entries.openNext key) path .header
      d.entries).map fun entries => ⟨entries, path ++ [key]⟩

/-- Carries out statements in order. -/
def applyAll : List Statement → Document → Option Document
  | [], d => some d
  | s :: rest, d => (d.apply s).bind (applyAll rest)

/-- The value under a key of the document itself. -/
def value? (d : Document) (key : String) : Option Entry := d.entries.get? key

theorem applyAll_append (first second : List Statement) (d : Document) :
    applyAll (first ++ second) d = (applyAll first d).bind (applyAll second) := by
  induction first generalizing d with
  | nil => rfl
  | cons s rest ih =>
    simp only [List.cons_append, applyAll]
    cases d.apply s with
    | none => rfl
    | some d' => exact ih d'

end Document

/-! ## Reading -/

/-- A header, from behind its opening bracket. -/
def header? : List Char → Scanned Statement
  | '[' :: rest =>
    match key? rest with
    | some ((path, key), ']' :: ']' :: rest) => some (.nextTable path key, rest)
    | _ => none
  | rest =>
    match key? rest with
    | some ((path, key), ']' :: rest) => some (.table path key, rest)
    | _ => none

/-- A statement without the end of its line. -/
def statement? : List Char → Scanned Statement
  | '[' :: rest => header? rest
  | text => (pair (value? (levelLimit - 1)) text).map fun r => (.pair r.1.1 r.1.2.1 r.1.2.2, r.2)

/-- The statements of a text, in at most so many steps. A step takes a line. -/
def statements? : Nat → List Char → Option (List Statement)
  | 0, _ => none
  | steps + 1, text =>
    match dropSpace text with
    | [] => some []
    | '#' :: rest => (lineEnd? ('#' :: rest)).bind (statements? steps)
    | '\n' :: rest => statements? steps rest
    | '\r' :: '\n' :: rest => statements? steps rest
    | text =>
      match statement? text with
      | none => none
      | some (s, rest) =>
        ((lineEnd? rest).bind (statements? steps)).map fun tail => s :: tail

/-- The text without a byte order mark at its start. -/
def withoutMark : List Char → List Char
  | '\uFEFF' :: rest => rest
  | text => text

/-- The table of a document, if the text is one. -/
def Document.ofString? (text : String) : Option Document :=
  let chars := withoutMark text.toList
  (statements? (chars.length + 1) chars).bind fun statements => applyAll statements {}

end ProgressDisplay.Toml
