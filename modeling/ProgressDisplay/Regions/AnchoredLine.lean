import ProgressDisplay.Attempt
import ProgressDisplay.Screen.Writer

/-!
# Lines anchored above the bottom of the terminal

An `AnchoredLine` belongs on a fixed row. Setting its content only records it. A redraw writes it,
and only if the content changed or the line was scrolled off its row since it was last drawn. A
hidden line is erased by its next redraw, if it had drawn anything.

* `redraw_of_upToDate`: the redraw of a line whose content stands on its row writes nothing.
* `failure_redrawAll_cons`, `state_redrawAll_cons`: lines are redrawn one after the other.
-/

namespace ProgressDisplay

structure AnchoredLine where
  /-- the row that the line belongs on -/
  anchor : Nat
  /-- where the last drawing stopped, shifted as the terminal scrolled -/
  position : Position
  content : Line := []
  /-- what was drawn last -/
  drawn : Line := []
  visible : Bool := true
  /-- there may be something on the screen that hiding has to erase -/
  dirty : Bool := false
  deriving DecidableEq

namespace AnchoredLine

/-- An empty line. -/
def onRow (anchor : Nat) : AnchoredLine := { anchor, position := { row := anchor } }

def setContent (l : AnchoredLine) (content : Line) : AnchoredLine := { l with content }

def setVisible (l : AnchoredLine) (visible : Bool) : AnchoredLine := { l with visible }

/-- The line with its position back at the start of its own row. -/
def atAnchor (l : AnchoredLine) : AnchoredLine := { l with position := { row := l.anchor } }

/-- Erases the row of the line. -/
def clear (l : AnchoredLine) (w : Writer) : Attempt DeviceFailure (AnchoredLine × Writer) :=
  let l := l.atAnchor
  .ofExcept (l, w) (w.drawAt l.position Pen.eraseRest) fun r =>
    ({ l with position := r.stop, drawn := [], dirty := false }, r.writer)

/-- Writes the content and erases what a longer line left behind it. -/
def draw (l : AnchoredLine) (w : Writer) : Attempt DeviceFailure (AnchoredLine × Writer) :=
  let l := l.atAnchor
  .ofExcept (l, w) (w.drawAt l.position fun p => (p.line l.content).eraseRest) fun r =>
    ({ l with position := r.stop, drawn := l.content, dirty := !l.content.isEmpty }, r.writer)

/-- Whether the content stands on the line's own row. -/
def upToDate (l : AnchoredLine) : Bool := l.position.row = l.anchor && l.drawn = l.content

def redraw (l : AnchoredLine) (w : Writer) : Attempt DeviceFailure (AnchoredLine × Writer) :=
  if l.visible then
    if l.upToDate then .done (l, w) else l.draw w
  else if l.dirty then l.clear w
  else .done (l, w)

/-- Redraws lines in order until one fails. -/
def redrawAll : List AnchoredLine → Writer → Attempt DeviceFailure (List AnchoredLine × Writer)
  | [], w => .done ([], w)
  | l :: rest, w =>
    let first := l.redraw w
    match first.failure with
    | some failure => ⟨(first.state.1 :: rest, first.state.2), some failure⟩
    | none => (redrawAll rest first.state.2).map fun s => (first.state.1 :: s.1, s.2)

/-- Whether text written from a position on would run over what the line drew there. -/
def overlaps (l : AnchoredLine) (p : Position) : Bool :=
  p.row = l.position.row && p.col < l.position.col

/-- The line shifted by a signed number of rows, upward if it is positive. -/
def shift (l : AnchoredLine) (rows : Int) : AnchoredLine :=
  { l with position := l.position.shift rows }

/-- The line after the terminal scrolled by a number of rows. -/
def raise (l : AnchoredLine) (rows : Nat) : AnchoredLine :=
  { l with position := l.position.raise rows }

theorem redraw_of_upToDate {l : AnchoredLine} (w : Writer) (hv : l.visible = true)
    (hu : l.upToDate = true) : l.redraw w = .done (l, w) := by
  simp [redraw, hv, hu]

section

variable {l : AnchoredLine} {rest : List AnchoredLine} {w : Writer}

theorem failure_redrawAll_cons :
    (redrawAll (l :: rest) w).failure = none ↔
      (l.redraw w).failure = none ∧ (redrawAll rest (l.redraw w).state.2).failure = none := by
  rw [redrawAll]
  split
  · rename_i failure hfailed
    simp [hfailed]
  · rename_i hdrawn
    simp [hdrawn, Attempt.map]

theorem state_redrawAll_cons (h : (l.redraw w).failure = none) :
    (redrawAll (l :: rest) w).state =
      ((l.redraw w).state.1 :: (redrawAll rest (l.redraw w).state.2).state.1,
        (redrawAll rest (l.redraw w).state.2).state.2) := by
  rw [redrawAll]
  simp [h, Attempt.map]

end

end AnchoredLine

end ProgressDisplay
