import ProgressDisplay.Regions.StatusBlock
import ProgressDisplay.Text.Pieces

/-!
# The page: output above the status block

A `Page` holds the writer, the status block, and the position and the style in which the output
above the block goes on. Whatever scrolls the terminal is told to both, so that they keep track of
the same screen. Before text or a line end is written, the block is scrolled out of the way and
redrawn, so that output never lands on a row that the block is drawn on.

* `clearBlock_of_clear`: where nothing intrudes, nothing is written.
-/

namespace ProgressDisplay

structure Page where
  writer : Writer
  block : StatusBlock
  /-- where the output goes on -/
  text : Position := .bottomLeft
  /-- how the output is drawn -/
  style : Style := {}

namespace Page

/-- A page on a fresh terminal, with so many worker lines asked for. -/
def start (device : Device) (palette : Palette) (workers : Nat) : Page where
  writer := { device, palette }
  block := .ofWorkers workers

/-- The rows to scroll before the text is clear of the block. -/
def overlap (s : Page) (pending : Bool) : Nat := s.block.overlap s.text pending

/-- Scrolls the terminal until the text is clear of the block. -/
def clearBlock (s : Page) (pending : Bool) : Attempt DeviceFailure Page :=
  let rows := s.overlap pending
  if rows = 0 then .done s
  else
    .ofExcept s (s.writer.drawAt .bottomLeft (Pen.breakLines rows)) fun r =>
      { s with
        writer := r.writer
        block := s.block.raise r.scrolled
        text := s.text.raise r.scrolled }

/-- Takes the block back to the bottom of the terminal, below all text. -/
def anchorBlock (s : Page) : Attempt DeviceFailure Page :=
  if s.block.visible then
    (s.clearBlock false).andThen fun s => .done { s with block := s.block.atBottom }
  else .done s

/-- Redraws the lines of the block. -/
def redrawLines (s : Page) : Attempt DeviceFailure Page :=
  (AnchoredLine.redrawAll s.block.lines s.writer).map fun r =>
    { s with writer := r.2, block := { s.block with lines := r.1 } }

/-- Leaves the cursor where it does not disturb the block. -/
def restCursor (s : Page) : Attempt DeviceFailure Page :=
  .ofExcept s (s.writer.moveTo s.block.restingPlace) fun writer => { s with writer }

def redrawBlock (s : Page) : Attempt DeviceFailure Page :=
  (s.anchorBlock.andThen redrawLines).andThen restCursor

/-- Scrolls the block off the current line and redraws it where it then stands. -/
def vacateLine (s : Page) : Attempt DeviceFailure Page :=
  if s.overlap true = 0 then .done s
  else (s.clearBlock true).andThen redrawBlock

/-- Draws where the output goes on. -/
def drawText (s : Page) (draw : Pen → Pen) : Attempt DeviceFailure Page :=
  .ofExcept s (s.writer.drawAt s.text draw) fun r =>
    { s with writer := r.writer, block := s.block.raise r.scrolled, text := r.stop }

/-- Writes text without line breaks. A row that the block was just scrolled off still holds the
block's top line and is erased first. -/
def writeText (s : Page) (text : List Char) : Attempt DeviceFailure Page :=
  if text = [] then .done s
  else
    s.vacateLine.andThen fun t =>
      t.drawText fun p =>
        (p.eraseRestIf (s.overlap true != 0)).styled s.style fun p =>
          p.tabbed (Text.pieces '\t' text)

/-- Ends the current line. What a line of the block drew further right on its row is erased. -/
def endLine (s : Page) : Attempt DeviceFailure Page :=
  s.vacateLine.andThen fun t =>
    t.drawText fun p =>
      (p.eraseRestIf (s.overlap true != 0 || t.block.overlaps t.text)).breakLine

/-- A line without the carriage return at its end, if it has one. -/
def withoutReturn (line : List Char) : List Char :=
  if line.getLast? = some '\r' then line.dropLast else line

/-- Writes lines with a line end between each two. -/
def writeLines : List (List Char) → Page → Attempt DeviceFailure Page
  | [], s => .done s
  | [last], s => s.writeText (withoutReturn last)
  | line :: rest, s =>
    ((s.writeText (withoutReturn line)).andThen endLine).andThen (writeLines rest)

/-- Writes text, which may hold line ends. -/
def write (s : Page) (text : String) : Attempt DeviceFailure Page :=
  writeLines (Text.pieces '\n' text.toList) s

/-- Flushes the device. -/
def flushDevice (s : Page) : Attempt DeviceFailure Page :=
  .ofExcept s s.writer.flush fun writer => { s with writer }

/-- Redraws the block and flushes the device. -/
def flush (s : Page) : Attempt DeviceFailure Page := s.redrawBlock.andThen flushDevice

def setVisible (s : Page) (visible : Bool) : Page :=
  { s with block := s.block.setVisible visible }

/-- Hides the block for good: erases it and gives up its rows. -/
def close (s : Page) : Attempt DeviceFailure Page := (s.setVisible false).flush

theorem overlap_of_hidden {s : Page} (h : s.block.visible = false) (pending : Bool) :
    s.overlap pending = 0 := by
  simp [overlap, StatusBlock.overlap, h]

theorem visible_of_overlap {s : Page} {pending : Bool} (h : s.overlap pending ≠ 0) :
    s.block.visible = true := by
  cases hv : s.block.visible with
  | true => rfl
  | false => exact absurd (overlap_of_hidden hv pending) h

theorem clearBlock_of_clear {s : Page} {pending : Bool} (h : s.overlap pending = 0) :
    s.clearBlock pending = .done s := by
  simp [clearBlock, h]

theorem vacateLine_of_clear {s : Page} (h : s.overlap true = 0) : s.vacateLine = .done s := by
  simp [vacateLine, h]

end Page

/-- What is asked of the output above the block. -/
inductive OutputRequest where
  | style (style : Style)
  | text (text : String)
  | endLine
  /-- text and a line end -/
  | line (text : String)
  deriving DecidableEq, Repr

namespace Page

/-- Carries out one request of output. -/
def output (s : Page) : OutputRequest → Attempt DeviceFailure Page
  | .style style => .done { s with style }
  | .text content => s.write content
  | .endLine => s.endLine
  | .line content => (s.write content).andThen endLine

/-- Carries out requests of output in order until one fails. -/
def outputAll (s : Page) (requests : List OutputRequest) : Attempt DeviceFailure Page :=
  Attempt.each (fun r s => s.output r) requests s

end Page

end ProgressDisplay
