/-!
# Positions on the terminal

Rows are counted upward from the bottom row, so that a position keeps its meaning while output
appears below it. Rows and columns stop at `Position.limit`: moving past it or below zero ends at
the nearer end.

* `raise_add`: two shifts upward are one.
* `shift_ofNat`: a shift by a natural number is a shift upward.
-/

namespace ProgressDisplay

structure Position where
  row : Nat := 0
  col : Nat := 0
  deriving DecidableEq, Repr

namespace Position

/-- The largest row and the largest column. -/
def limit : Nat := 65535

def bottomLeft : Position := {}

/-- The position a number of rows nearer to the top of the screen. -/
def raise (p : Position) (rows : Nat) : Position := { p with row := min (p.row + rows) limit }

/-- The position shifted by a signed number of rows, upward if it is positive. -/
def shift (p : Position) (rows : Int) : Position :=
  { p with row := min ((p.row : Int) + rows).toNat limit }

/-- The position a number of columns to the right. -/
def advance (p : Position) (columns : Nat) : Position :=
  { p with col := min (p.col + columns) limit }

theorem raise_add (p : Position) (m n : Nat) : (p.raise m).raise n = p.raise (m + n) := by
  simp only [raise, Position.mk.injEq, and_true]
  omega

theorem shift_ofNat (p : Position) (n : Nat) : p.shift n = p.raise n := by
  simp only [shift, raise, Position.mk.injEq, and_true]
  omega

end Position

end ProgressDisplay
