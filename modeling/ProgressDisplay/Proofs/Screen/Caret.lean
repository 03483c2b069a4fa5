import ProgressDisplay.Proofs.Screen.Terminal
import ProgressDisplay.Text.Width

/-!
# The cursor of a terminal

A `Caret` is the cursor of a terminal that is as wide and as high as it needs to be. It knows how
often the terminal scrolled and the furthest column that it has been in. Characters have the width
that they have alone, which may be none or two columns. A `CaretReader` reads what is sent to the
terminal character by character, as a `Terminal` does that puts every character in one cell.

* `foldl_put`: text moves the cursor by the widths of its characters.
* `CaretReader.readAll_renderAll`: a reader that is between two sequences reads emissions as the
  changes that `Caret.perform` gives.
* `le_furthest_performAll`: what was reached stays reached.
-/

namespace ProgressDisplay

structure Caret where
  cursor : Position := .bottomLeft
  /-- how often the terminal scrolled -/
  scrolls : Nat := 0
  /-- the furthest column that the cursor has been in -/
  furthest : Nat := 0
  within : cursor.col ≤ furthest := by simp [Position.bottomLeft]

namespace Caret

variable (c : Caret)

/-- Moves to a row. -/
def toRow (row : Nat) : Caret := { c with cursor := { c.cursor with row } }

/-- Moves to a column. -/
def toColumn (col : Nat) : Caret where
  cursor := { c.cursor with col }
  scrolls := c.scrolls
  furthest := max c.furthest col
  within := Nat.le_max_right _ _

def up (rows : Nat) : Caret := c.toRow (c.cursor.row + rows)

def down (rows : Nat) : Caret := c.toRow (c.cursor.row - rows)

def right (columns : Nat) : Caret := c.toColumn (c.cursor.col + columns)

def left (columns : Nat) : Caret := c.toColumn (c.cursor.col - columns)

def returnCarriage : Caret := c.toColumn 0

/-- A line feed on the bottom row scrolls the terminal instead of moving the cursor down. -/
def feedLine : Caret :=
  if c.cursor.row = 0 then { c with scrolls := c.scrolls + 1 } else c.down 1

/-- A character moves the cursor by its own width. -/
def put (char : Char) : Caret := c.right (Text.charWidth char)

/-- The change that an emission stands for. A motion goes at least one cell. -/
def perform (c : Caret) : Emission → Caret
  | .up n => c.up (max n 1)
  | .down n => c.down (max n 1)
  | .right n => c.right (max n 1)
  | .left n => c.left (max n 1)
  | .text content => content.toList.foldl put c
  | .lineBreak => c.returnCarriage.feedLine
  | .eraseRest | .bold | .italic | .reverse | .foreground _ | .reset => c

def performAll (c : Caret) (emissions : List Emission) : Caret := emissions.foldl perform c

theorem performAll_append (first second : List Emission) :
    c.performAll (first ++ second) = (c.performAll first).performAll second :=
  List.foldl_append

/-- The columns that characters take one by one. -/
def columns (text : List Char) : Nat := (text.map Text.charWidth).foldr Nat.add 0

theorem foldl_put (text : List Char) :
    (text.foldl put c).cursor = { c.cursor with col := c.cursor.col + columns text } ∧
      (text.foldl put c).scrolls = c.scrolls := by
  induction text generalizing c with
  | nil => exact ⟨rfl, rfl⟩
  | cons d rest ih =>
    obtain ⟨hcursor, hscrolls⟩ := ih (c.put d)
    rw [List.foldl_cons]
    refine ⟨?_, hscrolls⟩
    rw [hcursor]
    simp only [put, right, toColumn, columns, List.map_cons, List.foldr_cons, Nat.add_eq,
      Position.mk.injEq, true_and]
    omega

theorem cursor_lineBreak :
    (c.perform .lineBreak).cursor = { row := c.cursor.row - 1, col := 0 } := by
  show c.returnCarriage.feedLine.cursor = _
  unfold feedLine returnCarriage toColumn
  by_cases hrow : c.cursor.row = 0
  · simp [hrow]
  · simp [hrow, down, toRow]

theorem scrolls_lineBreak :
    (c.perform .lineBreak).scrolls = c.scrolls + if c.cursor.row = 0 then 1 else 0 := by
  show c.returnCarriage.feedLine.scrolls = _
  unfold feedLine returnCarriage toColumn
  by_cases hrow : c.cursor.row = 0
  · simp [hrow]
  · simp [hrow, down, toRow]

/-! ## Motions -/

/-- The emissions take the cursor to a place without a scroll. -/
structure Goes (c : Caret) (emissions : List Emission) (target : Position) : Prop where
  cursor : (c.performAll emissions).cursor = target
  scrolls : (c.performAll emissions).scrolls = c.scrolls

variable {c}

theorem goes_nil {target : Position} (h : c.cursor = target) : c.Goes [] target := ⟨h, rfl⟩

theorem Goes.append {first second : List Emission} {p q : Position} (h : c.Goes first p)
    (hnext : ∀ d : Caret, d.cursor = p → d.Goes second q) : c.Goes (first ++ second) q := by
  obtain ⟨hcursor, hscrolls⟩ := hnext _ h.cursor
  rw [← performAll_append] at hcursor hscrolls
  exact ⟨hcursor, hscrolls.trans h.scrolls⟩

theorem goes_right {row col columns : Nat} (h : c.cursor = { row, col }) (hmove : 0 < columns) :
    c.Goes [.right columns] { row, col := col + columns } := by
  refine ⟨?_, rfl⟩
  show { c.cursor with col := c.cursor.col + max columns 1 } = _
  rw [Nat.max_eq_left hmove, h]

theorem goes_left {row col columns : Nat} (h : c.cursor = { row, col }) (hmove : 0 < columns) :
    c.Goes [.left columns] { row, col := col - columns } := by
  refine ⟨?_, rfl⟩
  show { c.cursor with col := c.cursor.col - max columns 1 } = _
  rw [Nat.max_eq_left hmove, h]

theorem goes_up {row col rows : Nat} (h : c.cursor = { row, col }) (hmove : 0 < rows) :
    c.Goes [.up rows] { row := row + rows, col } := by
  refine ⟨?_, rfl⟩
  show { c.cursor with row := c.cursor.row + max rows 1 } = _
  rw [Nat.max_eq_left hmove, h]

theorem goes_down {row col rows : Nat} (h : c.cursor = { row, col }) (hmove : 0 < rows) :
    c.Goes [.down rows] { row := row - rows, col } := by
  refine ⟨?_, rfl⟩
  show { c.cursor with row := c.cursor.row - max rows 1 } = _
  rw [Nat.max_eq_left hmove, h]

/-- The motions between two positions lead from the one to the other. -/
theorem goes_motions (target : Position) : c.Goes (c.cursor.motions target) target := by
  obtain ⟨row', col'⟩ := target
  generalize hstart : c.cursor = start
  obtain ⟨row, col⟩ := start
  unfold Position.motions
  by_cases hrow : row = row'
  · subst hrow
    simp only [if_true]
    rcases Nat.lt_trichotomy col col' with hcol | rfl | hcol
    · have hgoes := goes_right hstart (Nat.sub_pos_of_lt hcol)
      rw [Nat.add_sub_cancel' (Nat.le_of_lt hcol)] at hgoes
      simpa [hcol] using hgoes
    · simpa using goes_nil hstart
    · have hgoes := goes_left hstart (Nat.sub_pos_of_lt hcol)
      rw [Nat.sub_sub_self (Nat.le_of_lt hcol)] at hgoes
      simpa [hcol, Nat.not_lt.mpr (Nat.le_of_lt hcol)] using hgoes
  · simp only [hrow, if_false]
    -- To another row the way goes through the first column: back to it, up or down, and out again.
    have hfirst : c.Goes (if 0 < col then [.left col] else []) { row } := by
      split
      · rename_i hcol
        have hgoes := goes_left hstart hcol
        rwa [Nat.sub_self] at hgoes
      · rename_i hcol
        have hzero : col = 0 := by omega
        subst hzero
        exact goes_nil hstart
    have hsecond (d : Caret) (hd : d.cursor = { row }) :
        d.Goes (if row < row' then [.up (row' - row)] else [.down (row - row')])
          { row := row' } := by
      split
      · rename_i hlt
        have hgoes := goes_up hd (Nat.sub_pos_of_lt hlt)
        rwa [Nat.add_sub_cancel' (Nat.le_of_lt hlt)] at hgoes
      · rename_i hge
        have hlt : row' < row := by omega
        have hgoes := goes_down hd (Nat.sub_pos_of_lt hlt)
        rwa [Nat.sub_sub_self (Nat.le_of_lt hlt)] at hgoes
    have hthird (d : Caret) (hd : d.cursor = { row := row' }) :
        d.Goes (if 0 < col' then [.right col'] else []) { row := row', col := col' } := by
      split
      · rename_i hcol
        have hgoes := goes_right hd hcol
        rwa [Nat.zero_add] at hgoes
      · rename_i hcol
        have hzero : col' = 0 := by omega
        subst hzero
        exact goes_nil hd
    exact (hfirst.append hsecond).append hthird

variable (c)

/-! ## What was reached stays reached -/

theorem le_furthest_toColumn (col : Nat) : c.furthest ≤ (c.toColumn col).furthest :=
  Nat.le_max_left _ _

theorem furthest_feedLine : c.feedLine.furthest = c.furthest := by
  unfold feedLine
  split <;> rfl

theorem le_furthest_foldl_put (text : List Char) :
    c.furthest ≤ (text.foldl put c).furthest := by
  induction text generalizing c with
  | nil => exact Nat.le_refl _
  | cons d rest ih => exact Nat.le_trans (c.le_furthest_toColumn _) (ih (c.put d))

theorem le_furthest_perform (e : Emission) : c.furthest ≤ (c.perform e).furthest := by
  cases e with
  | right n => exact c.le_furthest_toColumn _
  | left n => exact c.le_furthest_toColumn _
  | text content => exact c.le_furthest_foldl_put content.toList
  | lineBreak =>
    rw [perform, furthest_feedLine]
    exact c.le_furthest_toColumn 0
  | _ => exact Nat.le_refl _

theorem le_furthest_performAll (emissions : List Emission) :
    c.furthest ≤ (c.performAll emissions).furthest := by
  induction emissions generalizing c with
  | nil => exact Nat.le_refl _
  | cons e rest ih => exact Nat.le_trans (c.le_furthest_perform e) (ih (c.perform e))

end Caret

/-- A cursor together with how far a control sequence has been read. -/
structure CaretReader where
  caret : Caret := {}
  reading : Reading := .ground

namespace CaretReader

/-- The end of a control sequence. A number left out or zero stands for one. -/
def finish (caret : Caret) (value : Nat) : Char → Caret
  | 'A' => caret.up (max value 1)
  | 'B' => caret.down (max value 1)
  | 'C' => caret.right (max value 1)
  | 'D' => caret.left (max value 1)
  | _ => caret

/-- Reads one character. -/
def read (t : CaretReader) (c : Char) : CaretReader :=
  match t.reading with
  | .ground =>
    if c = '\x1b' then { t with reading := .escape }
    else if c = '\r' then { t with caret := t.caret.returnCarriage }
    else if c = '\n' then { t with caret := t.caret.feedLine }
    else { t with caret := t.caret.put c }
  | .escape => { t with reading := if c = '[' then .number 0 else .ground }
  | .number value =>
    if c.isDigit then { t with reading := .number (10 * value + (c.toNat - '0'.toNat)) }
    else if c = ';' then { t with reading := .number 0 }
    else { caret := finish t.caret value c }

def readAll (t : CaretReader) (text : List Char) : CaretReader := text.foldl read t

/-- A fresh terminal that everything was sent to. -/
def replay (output : List Emission) : CaretReader :=
  readAll {} (Emission.renderAll output).toList

variable (t : CaretReader) (c : Caret)

theorem readAll_append (first second : List Char) :
    t.readAll (first ++ second) = (t.readAll first).readAll second :=
  List.foldl_append

theorem reads : Reads read (fun caret reading => { caret, reading }) Caret.put Caret.perform where
  escape _ := rfl
  bracket _ := rfl
  digit c value d hd := by simp only [read, hd, if_true]
  separator _ _ := rfl
  up _ _ := rfl
  down _ _ := rfl
  right _ _ := rfl
  left _ _ := rfl
  eraseRest _ := rfl
  rendition _ _ := rfl
  switch c e he := by
    cases e with
    | bold | italic | reverse | foreground _ | reset => rfl
    | _ => exact he.elim
  quiet c d hd := by simp only [read, hd, if_false]
  text _ _ := rfl
  lineBreak _ := rfl

theorem readAll_renderAll {emissions : List Emission} (h : ∀ e ∈ emissions, e.Quiet) :
    readAll { caret := c } (Emission.renderAll emissions).toList =
      { caret := c.performAll emissions } :=
  reads.renderAll c h

theorem replay_append (first second : List Emission) :
    replay (first ++ second) = (replay first).readAll (Emission.renderAll second).toList := by
  rw [replay, Emission.renderAll, List.map_append, String.join_append, String.toList_append,
    readAll_append]
  rfl

end CaretReader

end ProgressDisplay
