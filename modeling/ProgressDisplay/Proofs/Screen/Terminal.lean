import ProgressDisplay.Proofs.Screen.Grid
import ProgressDisplay.Proofs.Screen.ControlSequence

/-!
# A terminal that is written to

A `Terminal` reads what is sent to it character by character: control sequences that move the
cursor or erase to the end of the line, carriage returns, line feeds, and all else in place. It is
as wide and as high as it needs to be. Sequences that only switch renditions change nothing that is
recorded here.

* `readAll_renderAll`: a terminal that is between two sequences reads emissions as the changes of
  the screen that `Screen.perform` gives.
* `replay_append`: what is sent later is read from where the terminal was left.
-/

namespace ProgressDisplay

/-- The cells of a terminal and its cursor. -/
structure Screen where
  cells : Grid := .blank
  cursor : Position := .bottomLeft

namespace Screen

variable (s : Screen)

def up (rows : Nat) : Screen := { s with cursor := { s.cursor with row := s.cursor.row + rows } }

def down (rows : Nat) : Screen := { s with cursor := { s.cursor with row := s.cursor.row - rows } }

def right (columns : Nat) : Screen :=
  { s with cursor := { s.cursor with col := s.cursor.col + columns } }

def left (columns : Nat) : Screen :=
  { s with cursor := { s.cursor with col := s.cursor.col - columns } }

def eraseRest : Screen := { s with cells := s.cells.eraseFrom s.cursor.row s.cursor.col }

def returnCarriage : Screen := { s with cursor := { s.cursor with col := 0 } }

/-- A line feed on the bottom row moves everything else up instead of the cursor down. -/
def feedLine : Screen :=
  if s.cursor.row = 0 then { s with cells := s.cells.scroll 1 }
  else { s with cursor := { s.cursor with row := s.cursor.row - 1 } }

def put (c : Char) : Screen where
  cells := s.cells.put s.cursor.row s.cursor.col c
  cursor := { s.cursor with col := s.cursor.col + 1 }

/-- The change that an emission stands for. A motion goes at least one cell. -/
def perform (s : Screen) : Emission → Screen
  | .up n => s.up (max n 1)
  | .down n => s.down (max n 1)
  | .right n => s.right (max n 1)
  | .left n => s.left (max n 1)
  | .eraseRest => s.eraseRest
  | .text content => content.toList.foldl put s
  | .lineBreak => s.returnCarriage.feedLine
  | .bold | .italic | .reverse | .foreground _ | .reset => s

def performAll (s : Screen) (emissions : List Emission) : Screen := emissions.foldl perform s

theorem performAll_append (first second : List Emission) :
    s.performAll (first ++ second) = (s.performAll first).performAll second :=
  List.foldl_append

theorem foldl_put (text : List Char) :
    text.foldl put s =
      { cells := s.cells.write s.cursor.row s.cursor.col text
        cursor := { s.cursor with col := s.cursor.col + text.length } } := by
  induction text generalizing s with
  | nil => rfl
  | cons c rest ih =>
    rw [List.foldl_cons, ih]
    simp only [put, Grid.write, List.length_cons, Screen.mk.injEq, Position.mk.injEq, true_and]
    omega

theorem feedLine_returnCarriage :
    s.returnCarriage.feedLine =
      { cells := s.cells.scroll (if s.cursor.row = 0 then 1 else 0)
        cursor := { row := s.cursor.row - 1 } } := by
  unfold feedLine returnCarriage
  by_cases hrow : s.cursor.row = 0
  · simp [hrow]
  · simp [hrow, Grid.scroll_zero]

end Screen

structure Terminal where
  screen : Screen := {}
  reading : Reading := .ground

namespace Terminal

/-- The end of a control sequence. A number left out or zero stands for one. -/
def finish (screen : Screen) (value : Nat) : Char → Screen
  | 'A' => screen.up (max value 1)
  | 'B' => screen.down (max value 1)
  | 'C' => screen.right (max value 1)
  | 'D' => screen.left (max value 1)
  | 'K' => screen.eraseRest
  | _ => screen

/-- Reads one character. -/
def read (t : Terminal) (c : Char) : Terminal :=
  match t.reading with
  | .ground =>
    if c = '\x1b' then { t with reading := .escape }
    else if c = '\r' then { t with screen := t.screen.returnCarriage }
    else if c = '\n' then { t with screen := t.screen.feedLine }
    else { t with screen := t.screen.put c }
  | .escape => { t with reading := if c = '[' then .number 0 else .ground }
  | .number value =>
    if c.isDigit then { t with reading := .number (10 * value + (c.toNat - '0'.toNat)) }
    else if c = ';' then { t with reading := .number 0 }
    else { screen := finish t.screen value c }

def readAll (t : Terminal) (text : List Char) : Terminal := text.foldl read t

/-- A fresh terminal that everything was sent to. -/
def replay (output : List Emission) : Terminal :=
  readAll {} (Emission.renderAll output).toList

variable (t : Terminal) (s : Screen)

theorem readAll_append (first second : List Char) :
    t.readAll (first ++ second) = (t.readAll first).readAll second :=
  List.foldl_append

theorem reads :
    Reads read (fun screen reading => { screen, reading }) Screen.put Screen.perform where
  escape _ := rfl
  bracket _ := rfl
  digit s value c hc := by simp only [read, hc, if_true]
  separator _ _ := rfl
  up _ _ := rfl
  down _ _ := rfl
  right _ _ := rfl
  left _ _ := rfl
  eraseRest _ := rfl
  rendition _ _ := rfl
  switch s e he := by
    cases e with
    | bold | italic | reverse | foreground _ | reset => rfl
    | _ => exact he.elim
  quiet s c hc := by simp only [read, hc, if_false]
  text _ _ := rfl
  lineBreak _ := rfl

theorem readAll_renderAll {emissions : List Emission} (h : ∀ e ∈ emissions, e.Quiet) :
    readAll { screen := s } (Emission.renderAll emissions).toList =
      { screen := s.performAll emissions } :=
  reads.renderAll s h

theorem replay_append (first second : List Emission) :
    replay (first ++ second) = (replay first).readAll (Emission.renderAll second).toList := by
  rw [replay, Emission.renderAll, List.map_append, String.join_append, String.toList_append,
    readAll_append]
  rfl

end Terminal

end ProgressDisplay
