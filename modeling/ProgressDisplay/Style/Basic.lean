/-!
# Logical styles

A style says what a piece of text is (its `Role`) and which emphasis was asked for. It names no
color: colors come from a scheme when the text is drawn.
-/

namespace ProgressDisplay

/-- What a piece of text stands for. -/
inductive Role where
  | normal
  | header
  | identifier
  | description
  | progressStatus
  | success
  | failure
  | info
  | error
  deriving DecidableEq, Repr

/-- A set of ways to make text stand out. -/
structure Emphasis where
  bold : Bool := false
  italic : Bool := false
  reverse : Bool := false
  deriving DecidableEq, Repr

namespace Emphasis

def empty : Emphasis := {}

/-- All of either set. -/
def union (a b : Emphasis) : Emphasis :=
  ⟨a.bold || b.bold, a.italic || b.italic, a.reverse || b.reverse⟩

instance : Union Emphasis := ⟨union⟩

/-- The set as a number: bold counts 1, italic 2, reverse 4. -/
def bits (e : Emphasis) : Nat :=
  (if e.bold then 1 else 0) + (if e.italic then 2 else 0) + (if e.reverse then 4 else 0)

/-- The set that a number stands for. Higher bits mean nothing. -/
def ofBits (n : Nat) : Emphasis := ⟨n.testBit 0, n.testBit 1, n.testBit 2⟩

theorem ofBits_bits (e : Emphasis) : ofBits e.bits = e := by
  obtain ⟨b, i, r⟩ := e
  cases b <;> cases i <;> cases r <;> rfl

@[simp] theorem union_empty (e : Emphasis) : e ∪ empty = e := by
  obtain ⟨b, i, r⟩ := e
  simp [Union.union, union, empty]

@[simp] theorem empty_union (e : Emphasis) : empty ∪ e = e := by
  obtain ⟨b, i, r⟩ := e
  simp [Union.union, union, empty]

end Emphasis

/-- A role with an emphasis. -/
structure Style where
  role : Role := .normal
  emphasis : Emphasis := {}
  deriving DecidableEq, Repr

namespace Style

def normal : Style := {}

/-- The style of a role, not emphasized. -/
def of (role : Role) : Style := { role }

/-- Ordinary text, emphasized. -/
def emphasized (emphasis : Emphasis) : Style := { emphasis }

/-- The style with more emphasis. -/
def withEmphasis (s : Style) (e : Emphasis) : Style := { s with emphasis := s.emphasis ∪ e }

end Style

end ProgressDisplay
