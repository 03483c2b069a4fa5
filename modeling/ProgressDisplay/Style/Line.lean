import ProgressDisplay.Style.Basic
import ProgressDisplay.Text.Width

/-!
# Lines of styled text

A `Line` is a list of spans, each a text in one style. Its width is the sum of the widths of its
spans, so text split over two spans is measured in two parts. `truncate` cuts a line to a number
of columns: it keeps whole spans while they fit, and of the first that does not fit it keeps the
characters that do.

* `truncate_of_fits`: a line that fits is kept as it is.
-/

namespace ProgressDisplay

/-- A text in one style. -/
structure Span where
  style : Style := {}
  text : String
  deriving DecidableEq, Repr

abbrev Line := List Span

namespace Span

/-- A span in the ordinary style. -/
def plain (text : String) : Span := { text }

def width (s : Span) : Nat := Text.width s.text

end Span

namespace Line

/-- The columns that a line takes. -/
def width (line : Line) : Nat := line.foldr (fun s columns => s.width + columns) 0

/-- A line of one ordinary span, or no span at all for the empty text. -/
def plain (text : String) : Line := if text = "" then [] else [Span.plain text]

/-- The longest run of leading characters whose widths, taken one by one, sum to at most
`columns`. -/
def fitting (columns : Nat) : List Char → List Char
  | [] => []
  | c :: rest =>
    if Text.charWidth c ≤ columns then c :: fitting (columns - Text.charWidth c) rest else []

/-- What a span keeps when not all of it fits: nothing, or its fitting characters. -/
def cutSpan (columns : Nat) (s : Span) : Line :=
  match fitting columns s.text.toList with
  | [] => []
  | kept => [{ s with text := String.ofList kept }]

/-- Whole spans while they fit, then the fitting characters of the next. -/
def cut : Nat → Line → Line
  | _, [] => []
  | columns, s :: rest =>
    if columns = 0 then []
    else if s.width ≤ columns then s :: cut (columns - s.width) rest
    else cutSpan columns s

/-- The line cut down to a number of columns. A line that fits stays as it is. -/
def truncate (columns : Nat) (line : Line) : Line :=
  if width line ≤ columns then line else cut columns line

/-- The line cut so that the last column of the terminal stays free. Where the number of columns is
not known, or is too small to leave one, nothing is cut. -/
def fitColumns (columns : Option Nat) (line : Line) : Line :=
  match columns with
  | none => line
  | some n => if n ≤ 1 then line else truncate (n - 1) line

theorem width_nil : width [] = 0 := rfl

theorem width_cons (s : Span) (line : Line) : width (s :: line) = s.width + width line :=
  rfl

theorem truncate_of_fits {columns : Nat} {line : Line} (h : width line ≤ columns) :
    truncate columns line = line := by
  simp [truncate, h]

end Line

end ProgressDisplay
