/-!
# Space, line ends and comments

What may stand between the parts of a document. A scanner takes the text that is left; a failure
means that the text is no such part.

* `dropSpace_length_le`, `dropBlank_length_le`: what is left is never longer.
-/

namespace ProgressDisplay.Toml

/-- The result of a scanner: what was read, and the text behind it. -/
abbrev Scanned (α : Type) := Option (α × List Char)

/-- Blanks within a line. -/
def isSpace (c : Char) : Bool := c = ' ' || c = '\t'

/-- Characters allowed in a comment: all but control characters, tabs excepted. -/
def isCommentChar (c : Char) : Bool := c = '\t' || (0x20 ≤ c.toNat && c.toNat ≠ 0x7F)

/-- The text behind blanks within a line. -/
def dropSpace (text : List Char) : List Char := text.dropWhile isSpace

/-- The text behind a line feed, which a carriage return may precede. -/
def lineFeed? : List Char → Option (List Char)
  | '\n' :: rest => some rest
  | '\r' :: '\n' :: rest => some rest
  | _ => none

/-- The text behind a comment, which ends before the end of its line. -/
def dropComment : List Char → List Char
  | '#' :: rest => rest.dropWhile isCommentChar
  | text => text

/-- The text behind blanks, a comment if there is one, and the end of the line or of the text. -/
def lineEnd? (text : List Char) : Option (List Char) :=
  match dropComment (dropSpace text) with
  | [] => some []
  | rest => lineFeed? rest

/-- The text behind blanks and line feeds. -/
def dropBlank : List Char → List Char
  | '\n' :: rest => dropBlank rest
  | '\r' :: '\n' :: rest => dropBlank rest
  | c :: rest => if isSpace c then dropBlank rest else c :: rest
  | [] => []

/-- The text behind blanks, line feeds and comments. Within a comment all but the end of its line
is skipped. -/
def dropTrivia : Bool → List Char → List Char
  | _, '\n' :: rest => dropTrivia false rest
  | _, '\r' :: '\n' :: rest => dropTrivia false rest
  | true, c :: rest => if isCommentChar c then dropTrivia true rest else c :: rest
  | false, c :: rest =>
    if isSpace c then dropTrivia false rest
    else if c = '#' then dropTrivia true rest
    else c :: rest
  | _, [] => []

theorem length_dropWhile_le (p : Char → Bool) (text : List Char) :
    (text.dropWhile p).length ≤ text.length := by
  induction text with
  | nil => exact Nat.le_refl 0
  | cons c rest ih =>
    rw [List.dropWhile_cons]
    split
    · exact Nat.le_succ_of_le ih
    · exact Nat.le_refl _

theorem dropSpace_length_le (text : List Char) : (dropSpace text).length ≤ text.length :=
  length_dropWhile_le isSpace text

theorem dropBlank_length_le (text : List Char) : (dropBlank text).length ≤ text.length := by
  fun_induction dropBlank text with
  | case1 rest ih => exact Nat.le_succ_of_le ih
  | case2 rest ih => exact Nat.le_trans ih (Nat.le_add_right _ 2)
  | case3 c rest _ _ _ ih => exact Nat.le_succ_of_le ih
  | case4 => exact Nat.le_refl _
  | case5 => exact Nat.le_refl _

end ProgressDisplay.Toml
