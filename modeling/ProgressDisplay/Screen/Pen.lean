import ProgressDisplay.Screen.Emission
import ProgressDisplay.Style.Line

/-!
# Drawing

A `Pen` collects emissions and keeps the position that the terminal's cursor will have after them.
A line break on the bottom row scrolls the terminal instead of moving the cursor; the pen counts
these.

* `text_cursor`: text moves the cursor by its width.
* `breakLine_cursor`: a line break ends in the first column, one row lower if there is one.
-/

namespace ProgressDisplay

structure Pen where
  palette : Palette
  cursor : Position
  emitted : List Emission := []
  /-- line breaks written on the bottom row -/
  scrolled : Nat := 0

namespace Pen

def emit (p : Pen) (emissions : List Emission) : Pen := { p with emitted := p.emitted ++ emissions }

/-- The column of the next character. -/
def column (p : Pen) : Nat := p.cursor.col

/-- Writes text that holds no line break. -/
def text (p : Pen) (content : String) : Pen :=
  if content = "" then p
  else { p.emit [.text content] with cursor := p.cursor.advance (Text.width content) }

/-- Draws in a style: its rendition is on while the body is drawn. -/
def styled (p : Pen) (style : Style) (body : Pen → Pen) : Pen :=
  (body (p.emit (p.palette style).on)).emit (p.palette style).off

/-- Erases from the cursor to the end of the line. -/
def eraseRest (p : Pen) : Pen := p.emit [.eraseRest]

/-- Erases to the end of the line if asked to. -/
def eraseRestIf (p : Pen) (erase : Bool) : Pen := if erase then p.eraseRest else p

def breakLine (p : Pen) : Pen :=
  if p.cursor.row = 0 then
    { p.emit [.lineBreak] with cursor := { p.cursor with col := 0 }, scrolled := p.scrolled + 1 }
  else
    { p.emit [.lineBreak] with cursor := { row := p.cursor.row - 1, col := 0 } }

/-- A number of line breaks. -/
def breakLines : Nat → Pen → Pen
  | 0, p => p
  | n + 1, p => breakLines n p.breakLine

/-- Draws a line, each span in its style. -/
def line (p : Pen) (spans : Line) : Pen :=
  spans.foldl (fun p s => p.styled s.style fun p => p.text s.text) p

/-- The distance between tab stops. -/
def tabWidth : Nat := 8

/-- Blanks up to the next tab stop. -/
def tab (p : Pen) : Pen :=
  p.text (String.ofList (List.replicate (tabWidth - p.column % tabWidth) ' '))

/-- Writes pieces of text with a tab between each two. -/
def tabbed (p : Pen) : List (List Char) → Pen
  | [] => p
  | [piece] => p.text (String.ofList piece)
  | piece :: rest => tabbed (p.text (String.ofList piece)).tab rest

/-! ## First facts -/

theorem text_cursor (p : Pen) (content : String) (h : content ≠ "") :
    (p.text content).cursor = p.cursor.advance (Text.width content) := by
  simp [text, h]

theorem breakLine_cursor (p : Pen) :
    p.breakLine.cursor = { row := p.cursor.row - 1, col := 0 } := by
  unfold breakLine
  split
  · simp_all
  · rfl

theorem breakLine_scrolled (p : Pen) :
    p.breakLine.scrolled = p.scrolled + if p.cursor.row = 0 then 1 else 0 := by
  unfold breakLine
  split <;> simp_all [emit]

end Pen

end ProgressDisplay
