import ProgressDisplay.Screen.Device
import ProgressDisplay.Screen.Pen

/-!
# The writer of the terminal

All regions draw through one `Writer`, which knows where the terminal's cursor is. A region names
the position to draw at; the writer moves there, draws, and reports where the drawing stopped and
how many line breaks scrolled the terminal. Nothing is kept of an operation that fails.

* `tryDrawAt_ok`, `commit_eq_ok_iff`: a drawing that can be completed succeeds exactly if the device
  takes it.
* `moveTo_eq_ok_iff`, `flush_eq_ok_iff`: so does a motion, and a flush.
-/

namespace ProgressDisplay

structure Writer where
  device : Device := {}
  palette : Palette
  /-- where the terminal's cursor is -/
  cursor : Position := .bottomLeft

/-- A completed drawing: the writer after it, where it stopped, and how often it scrolled. -/
structure Drawn where
  writer : Writer
  stop : Position
  scrolled : Nat

namespace Writer

/-- The pen that has moved to a position. -/
def penAt (w : Writer) (place : Position) : Pen where
  palette := w.palette
  cursor := place
  emitted := w.cursor.motions place

/-- Delivers what a pen has emitted. -/
def commit (w : Writer) (p : Pen) : Except DeviceFailure Drawn :=
  (w.device.write p.emitted).map fun device =>
    { writer := { w with device, cursor := p.cursor }, stop := p.cursor, scrolled := p.scrolled }

/-- Draws at a position, unless the drawing itself fails. -/
def tryDrawAt (w : Writer) (place : Position) (draw : Pen → Except DeviceFailure Pen) :
    Except DeviceFailure Drawn :=
  (draw (w.penAt place)).bind w.commit

/-- Draws at a position what can always be drawn. -/
def drawAt (w : Writer) (place : Position) (draw : Pen → Pen) : Except DeviceFailure Drawn :=
  w.commit (draw (w.penAt place))

/-- Moves the terminal's cursor and draws nothing. -/
def moveTo (w : Writer) (target : Position) : Except DeviceFailure Writer :=
  (w.device.write (w.cursor.motions target)).map fun device => { w with device, cursor := target }

def flush (w : Writer) : Except DeviceFailure Writer :=
  w.device.flush.map fun device => { w with device }

theorem tryDrawAt_ok (w : Writer) (place : Position) (draw : Pen → Pen) :
    (w.tryDrawAt place fun p => .ok (draw p)) = w.drawAt place draw := rfl

theorem commit_eq_ok_iff {w : Writer} {p : Pen} {r : Drawn} :
    w.commit p = .ok r ↔ ∃ device, w.device.write p.emitted = .ok device ∧
      r = ⟨{ w with device, cursor := p.cursor }, p.cursor, p.scrolled⟩ := by
  unfold commit
  cases h : w.device.write p.emitted <;> simp [Except.map, eq_comm]

theorem moveTo_eq_ok_iff {w w' : Writer} {target : Position} :
    w.moveTo target = .ok w' ↔ ∃ device, w.device.write (w.cursor.motions target) = .ok device ∧
      w' = { w with device, cursor := target } := by
  unfold moveTo
  cases h : w.device.write (w.cursor.motions target) <;> simp [Except.map, eq_comm]

theorem flush_eq_ok_iff {w w' : Writer} :
    w.flush = .ok w' ↔ ∃ device, w.device.flush = .ok device ∧ w' = { w with device } := by
  unfold flush
  cases h : w.device.flush <;> simp [Except.map, eq_comm]

end Writer

end ProgressDisplay
