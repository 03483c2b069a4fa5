import ProgressDisplay.Text.Bytes
import ProgressDisplay.Text.Numeral

/-!
# Gauges

A gauge such as the one in `<=====--------> 38% EXECUTING` counts finished items of work. Both the
number of complete characters and the percentage are rounded down. Without any item of work the
gauge is full.

A gauge is computed with words of 64 bits and drawn into memory. `increment?`, `figures?` and
`render` give nothing where a number is no word, a difference is below zero or a text is too long.

* `share_le`: a gauge never shows more than its whole.
* `utf8ByteSize_draw`: the length of a text is known before it is drawn.
-/

namespace ProgressDisplay

/-- How a gauge is drawn. -/
structure GaugeShape where
  opening : String := "<"
  width : Nat := 13
  closing : String := ">"
  complete : Char := '='
  incomplete : Char := '-'
  deriving DecidableEq, Repr

structure Gauge where
  shape : GaugeShape := {}
  /-- what is being done, shown behind the percentage -/
  activity : String
  total : Nat
  current : Nat := 0
  deriving DecidableEq, Repr

namespace Gauge

/-- The activity before anything is known of the build. -/
def initializing : String := "INITIALIZING"

/-- The activity while the projects are configured. -/
def configuring : String := "CONFIGURING"

/-- The activity while the tasks are run. -/
def executing : String := "EXECUTING"

/-- The part of a number that the finished items are of all items, rounded down. -/
def share (g : Gauge) (whole : Nat) : Nat :=
  if g.total = 0 then whole else g.current * whole / g.total

/-- One more item is finished. Past the total the gauge stays full. -/
def increment (g : Gauge) : Gauge := { g with current := min (g.current + 1) g.total }

theorem share_le {g : Gauge} (h : g.current ≤ g.total) (whole : Nat) :
    g.share whole ≤ whole := by
  unfold share
  split
  · exact Nat.le_refl whole
  · exact Nat.div_le_of_le_mul (Nat.mul_le_mul_right whole h)

/-! ## Words -/

/-- A number, if it is a word of 64 bits. -/
def word? (n : Nat) : Option Nat := if n < Text.bound64 then some n else none

/-- One more item, if words can count it. -/
def increment? (g : Gauge) : Option Gauge :=
  (word? (g.current + 1)).map fun next => { g with current := min next g.total }

/-- The part of a number, if words can hold the product that it is computed from. -/
def share? (g : Gauge) (whole : Nat) : Option Nat :=
  if g.total = 0 then some whole else (word? (g.current * whole)).map (· / g.total)

/-- The numbers that a gauge is drawn with. -/
structure Figures where
  complete : Nat
  incomplete : Nat
  percent : Nat
  /-- the bytes set aside for the bar with its ends, as if each character of it took one -/
  room : Nat
  deriving DecidableEq, Repr

/-- The bytes that are set aside before the bar is drawn. -/
def room (g : Gauge) : Nat :=
  g.shape.width + g.shape.opening.utf8ByteSize + g.shape.closing.utf8ByteSize

/-- The numbers, whatever words can hold. -/
def figures (g : Gauge) : Figures :=
  ⟨g.share g.shape.width, g.shape.width - g.share g.shape.width, g.share 100, g.room⟩

/-- The numbers, if they can be computed with words. No width falls below zero. -/
def figures? (g : Gauge) : Option Figures :=
  (g.share? g.shape.width).bind fun complete =>
    (g.share? 100).bind fun percent =>
      if complete ≤ g.shape.width then
        (word? g.room).map (⟨complete, g.shape.width - complete, percent, ·⟩)
      else none

/-! ## Text -/

/-- The text of a gauge with such numbers. -/
def draw (g : Gauge) (figures : Figures) : String :=
  g.shape.opening ++ String.ofList (List.replicate figures.complete g.shape.complete) ++
    String.ofList (List.replicate figures.incomplete g.shape.incomplete) ++
    g.shape.closing ++ " " ++ Nat.repr figures.percent ++ "% " ++ g.activity

/-- The bytes of that text. -/
def drawnBytes (g : Gauge) (figures : Figures) : Nat :=
  g.shape.opening.utf8ByteSize + figures.complete * g.shape.complete.utf8Size +
    figures.incomplete * g.shape.incomplete.utf8Size + g.shape.closing.utf8ByteSize + 1 +
    (Nat.repr figures.percent).utf8ByteSize + 2 + g.activity.utf8ByteSize

/-- The text of a gauge, whatever words and memory can hold. -/
def text (g : Gauge) : String := g.draw g.figures

/-- The text of a gauge, if its numbers are words and there is room for it. A text that grows is
given up to twice the bytes that it takes. -/
def render (g : Gauge) : Option String :=
  g.figures?.bind fun figures =>
    if figures.room ≤ Text.largest ∧ 2 * g.drawnBytes figures ≤ Text.largest then
      some (g.draw figures)
    else none

theorem utf8ByteSize_replicate (count : Nat) (c : Char) :
    (String.ofList (List.replicate count c)).utf8ByteSize = count * c.utf8Size := by
  induction count with
  | zero => simp
  | succ count ih =>
    rw [List.replicate_succ, String.ofList_cons, String.utf8ByteSize_append, ih]
    simp [Nat.add_mul, Nat.add_comm]

theorem utf8ByteSize_draw (g : Gauge) (figures : Figures) :
    (g.draw figures).utf8ByteSize = g.drawnBytes figures := by
  simp only [draw, drawnBytes, String.utf8ByteSize_append, utf8ByteSize_replicate]
  rfl

end Gauge

end ProgressDisplay
