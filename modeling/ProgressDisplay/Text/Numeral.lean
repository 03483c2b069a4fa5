/-!
# Numerals of bounded numbers

`number? bound text` reads an optional plus sign and at least one ASCII digit as a number below
`bound`. Nothing else is read: no blank, no separator, no minus sign.

* `number?_lt`: what is read is below the bound.
-/

namespace ProgressDisplay.Text

/-- The value of an ASCII digit. -/
def digit? (c : Char) : Option Nat :=
  if '0' ≤ c ∧ c ≤ '9' then some (c.toNat - '0'.toNat) else none

/-- Digits read after those that gave `value`, as long as the number stays below the bound. -/
def digits? (bound : Nat) : Nat → List Char → Option Nat
  | value, [] => some value
  | value, c :: rest =>
    match digit? c with
    | none => none
    | some d => if value * 10 + d < bound then digits? bound (value * 10 + d) rest else none

/-- The number that a numeral denotes, if it is below the bound. -/
def number? (bound : Nat) (text : List Char) : Option Nat :=
  match text with
  | [] => none
  | c :: rest =>
    if c = '+' then (if rest.isEmpty then none else digits? bound 0 rest)
    else digits? bound 0 text

theorem digits?_lt {bound value n : Nat} {text : List Char} (hv : value < bound)
    (h : digits? bound value text = some n) : n < bound := by
  induction text generalizing value with
  | nil =>
    simp only [digits?, Option.some.injEq] at h
    omega
  | cons c rest ih =>
    simp only [digits?] at h
    split at h
    · cases h
    · split at h
      · exact ih (by assumption) h
      · cases h

theorem number?_lt {bound n : Nat} {text : List Char} (hb : 0 < bound)
    (h : number? bound text = some n) : n < bound := by
  unfold number? at h
  split at h
  · cases h
  · split at h
    · split at h
      · cases h
      · exact digits?_lt hb h
    · exact digits?_lt hb h

/-- The numbers of 64 bits lie below this bound. -/
def bound64 : Nat := 0x10000000000000000

end ProgressDisplay.Text
