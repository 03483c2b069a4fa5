import ProgressDisplay.Screen.Position
import ProgressDisplay.Style.Scheme

/-!
# What is sent to the terminal

An `Emission` is one unit of output: a relative motion of the cursor, an erasure, a switch of
rendition, text, or a line break. `Emission.render` is its form on the wire.
-/

namespace ProgressDisplay

inductive Emission where
  | up (rows : Nat)
  | down (rows : Nat)
  | right (columns : Nat)
  | left (columns : Nat)
  /-- erase from the cursor to the end of its line -/
  | eraseRest
  | bold
  | italic
  | reverse
  | foreground (color : Rgb)
  /-- back to the default rendition -/
  | reset
  | text (content : String)
  | lineBreak
  deriving DecidableEq, Repr

namespace Emission

/-- The introducer of a control sequence. -/
def introducer : String := "\x1b["

/-- The form of an emission on the wire. -/
def render : Emission → String
  | up n => introducer ++ Nat.repr n ++ "A"
  | down n => introducer ++ Nat.repr n ++ "B"
  | right n => introducer ++ Nat.repr n ++ "C"
  | left n => introducer ++ Nat.repr n ++ "D"
  | eraseRest => introducer ++ "K"
  | bold => introducer ++ "1m"
  | italic => introducer ++ "3m"
  | reverse => introducer ++ "7m"
  | foreground c =>
    introducer ++ "38;2;" ++ Nat.repr c.red.toNat ++ ";" ++ Nat.repr c.green.toNat ++ ";" ++
      Nat.repr c.blue.toNat ++ "m"
  | reset => introducer ++ "0m"
  | text content => content
  | lineBreak => "\r\n"

/-- Whether an emission holds a line feed. -/
def completesLine : Emission → Bool
  | text content => content.contains '\n'
  | lineBreak => true
  | _ => false

/-- The form of a sequence of emissions on the wire. -/
def renderAll (emissions : List Emission) : String :=
  String.join (emissions.map render)

end Emission

/-- The motions that take the cursor from one position to another. A change of row goes through
the first column. -/
def Position.motions (start target : Position) : List Emission :=
  if start.row = target.row then
    if start.col < target.col then [.right (target.col - start.col)]
    else if target.col < start.col then [.left (start.col - target.col)]
    else []
  else
    (if 0 < start.col then [.left start.col] else []) ++
    (if start.row < target.row then [.up (target.row - start.row)]
      else [.down (start.row - target.row)]) ++
    (if 0 < target.col then [.right target.col] else [])

theorem Position.motions_self (p : Position) : p.motions p = [] := by
  simp [motions]

theorem Position.text_notMem_motions (start target : Position) (content : String) :
    .text content ∉ start.motions target := by
  unfold motions
  repeat' split
  all_goals simp

/-- Switches a rendition on, starting from the default rendition. -/
def Rendition.on (r : Rendition) : List Emission :=
  (if r.emphasis.bold then [.bold] else []) ++
  (if r.emphasis.italic then [.italic] else []) ++
  (if r.emphasis.reverse then [.reverse] else []) ++
  (match r.foreground with
    | some color => [.foreground color]
    | none => [])

/-- Switches a rendition off. The plain one was never switched on. -/
def Rendition.off (r : Rendition) : List Emission :=
  if r.isPlain then [] else [.reset]

end ProgressDisplay
