import ProgressDisplay.Regions.AnchoredLine

/-!
# The block of status lines

The block is pinned to the bottom of the terminal. From top to bottom it holds the line of the
build as a whole, a line for each worker, and a row kept free for the cursor.

* `length_ofWorkers`: the block has two rows more than worker lines.
* `overlap_le_height`: text never intrudes by more rows than the block has.
-/

namespace ProgressDisplay

structure StatusBlock where
  /-- the lines, top first -/
  lines : List AnchoredLine
  /-- the top of the block as it stands on the screen -/
  position : Position
  visible : Bool := true
  deriving DecidableEq

namespace StatusBlock

/-- The largest number of worker lines. -/
def maxWorkers : Nat := 8

/-- The number of worker lines that a block has when so many are asked for. -/
def workerLines (preferred : Nat) : Nat := min preferred maxWorkers

/-- The rows of a block: the build's own line, the worker lines, and the free row. -/
def totalHeight (workers : Nat) : Nat := workers + 2

/-- Empty lines on all rows below a height, top first. -/
def emptyLines : Nat → List AnchoredLine
  | 0 => []
  | n + 1 => .onRow n :: emptyLines n

def ofWorkers (preferred : Nat) : StatusBlock :=
  let height := totalHeight (workerLines preferred)
  { lines := emptyLines height, position := { row := height - 1 } }

def height (b : StatusBlock) : Nat := b.lines.length

/-- The top row of the block when it stands at the bottom of the terminal. -/
def top (b : StatusBlock) : Nat := b.height - 1

/-- The line of the build as a whole. -/
def statusLine (b : StatusBlock) : AnchoredLine := b.lines.headD (.onRow 0)

/-- The lines of the workers. -/
def workers (b : StatusBlock) : List AnchoredLine := b.lines.tail.dropLast

/-- Sets the content of the line at an index, 0 for the top one. -/
def setLine (b : StatusBlock) (index : Nat) (content : Line) : StatusBlock :=
  { b with lines := b.lines.modify index fun l => l.setContent content }

/-- Sets the contents of lines, first to last, as far as there are both. -/
def setContents : List Line → List AnchoredLine → List AnchoredLine
  | content :: contents, l :: lines => l.setContent content :: setContents contents lines
  | _, lines => lines

/-- Sets the contents of the worker lines, first to last. -/
def setWorkers (b : StatusBlock) (contents : List Line) : StatusBlock :=
  { b with
    lines := match b.lines with
      | [] => []
      | status :: rest => status :: setContents contents rest }

def setVisible (b : StatusBlock) (visible : Bool) : StatusBlock :=
  { b with visible, lines := b.lines.map fun l => l.setVisible visible }

/-- Whether text written from a position on would run over what any of the lines drew. -/
def overlaps (b : StatusBlock) (p : Position) : Bool := b.lines.any fun l => l.overlaps p

/-- The rows by which text that has reached a position intrudes into the block. A line of text that
was started but holds nothing may share the top row, unless text is about to be written. -/
def overlap (b : StatusBlock) (text : Position) (pending : Bool) : Nat :=
  if b.visible then
    min (b.top + (if 0 < text.col || pending then 1 else 0) - text.row) b.height
  else 0

/-- The block shifted by a signed number of rows, upward if it is positive. -/
def shift (b : StatusBlock) (rows : Int) : StatusBlock :=
  { b with
    position := b.position.shift rows
    lines := b.lines.map fun l => l.shift rows }

/-- The block after the terminal scrolled by a number of rows. -/
def raise (b : StatusBlock) (rows : Nat) : StatusBlock :=
  { b with
    position := b.position.raise rows
    lines := b.lines.map fun l => l.raise rows }

/-- The block with its position back at the bottom of the terminal. -/
def atBottom (b : StatusBlock) : StatusBlock := { b with position := { row := b.top } }

/-- Where the cursor is left after a redraw: on the row kept free for it, or, when the block is
hidden, where the block stood. -/
def restingPlace (b : StatusBlock) : Position := if b.visible then .bottomLeft else b.position

theorem length_emptyLines (n : Nat) : (emptyLines n).length = n := by
  induction n with
  | zero => rfl
  | succ n ih => simp [emptyLines, ih]

theorem length_ofWorkers (preferred : Nat) :
    (ofWorkers preferred).lines.length = workerLines preferred + 2 := by
  simp [ofWorkers, length_emptyLines, totalHeight]

theorem overlap_le_height (b : StatusBlock) (text : Position) (pending : Bool) :
    b.overlap text pending ≤ b.height := by
  unfold overlap
  split
  · exact Nat.min_le_right _ _
  · exact Nat.zero_le _

end StatusBlock

end ProgressDisplay
