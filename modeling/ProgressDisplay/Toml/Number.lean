import ProgressDisplay.Toml.Quoted

/-!
# Numbers

Integers are decimal with an optional sign and no leading zero, or hexadecimal, octal or binary
with a prefix and no sign. An underscore may stand between two digits. An integer has to fit into
64 bits with sign. A float has a fraction or an exponent; its value is not kept, but a positive one
must not round to infinity.

* `fits_of_integer?`: an integer that is read fits into 64 bits.
-/

namespace ProgressDisplay.Toml

def isDigit (c : Char) : Bool := '0' ≤ c && c ≤ '9'

/-- The leading digits of a text, with single underscores between them left out. -/
def digitRun (p : Char → Bool) : List Char → List Char × List Char
  | [] => ([], [])
  | '_' :: d :: rest =>
    if p d then
      let r := digitRun p rest
      (d :: r.1, r.2)
    else ([], '_' :: d :: rest)
  | c :: rest =>
    if p c then
      let r := digitRun p rest
      (c :: r.1, r.2)
    else ([], c :: rest)

/-- At least one digit, zeros in front allowed. -/
def digits? (p : Char → Bool) : List Char → Scanned (List Char)
  | c :: rest => if p c then some (digitRun p (c :: rest)) else none
  | [] => none

/-- The number that digits denote in a base. -/
def value (base : Nat) (digits : List Char) : Nat :=
  digits.foldl (fun n c => n * base + (hexDigit? c).getD 0) 0

/-- An optional sign: whether it is a minus, and the text behind it. -/
def sign : List Char → Bool × List Char
  | '-' :: rest => (true, rest)
  | '+' :: rest => (false, rest)
  | text => (false, text)

/-- The digits of a decimal number: a zero, or digits that start with another. -/
def decimalDigits? : List Char → Scanned (List Char)
  | '0' :: rest => some (['0'], rest)
  | text => digits? isDigit text

/-- Whether a number fits into 64 bits with sign. -/
def fits (n : Int) : Bool := -0x8000000000000000 ≤ n && n < 0x8000000000000000

/-- A number with a prefix that names its base. -/
def based? (base : Nat) (p : Char → Bool) (text : List Char) : Scanned Int :=
  (digits? p text).map fun r => (Int.ofNat (value base r.1), r.2)

/-- A decimal number with its sign. -/
def decimal? (text : List Char) : Scanned Int :=
  let s := sign text
  (decimalDigits? s.2).map fun r =>
    (if s.1 then -Int.ofNat (value 10 r.1) else Int.ofNat (value 10 r.1), r.2)

/-- An integer of any size. -/
def anyInteger? : List Char → Scanned Int
  | '0' :: 'x' :: rest => based? 16 (fun c => (hexDigit? c).isSome) rest
  | '0' :: 'o' :: rest => based? 8 (fun c => '0' ≤ c && c ≤ '7') rest
  | '0' :: 'b' :: rest => based? 2 (fun c => c = '0' || c = '1') rest
  | text => decimal? text

def integer? (text : List Char) : Scanned Int := (anyInteger? text).filter fun r => fits r.1

/-! ## Floats -/

/-- An exponent: its value and the text behind it. -/
def exponent? : List Char → Scanned Int
  | c :: rest =>
    if c = 'e' ∨ c = 'E' then
      let s := sign rest
      (digits? isDigit s.2).map fun r =>
        (if s.1 then -Int.ofNat (value 10 r.1) else Int.ofNat (value 10 r.1), r.2)
    else none
  | [] => none

/-- A fraction: its digits and the text behind it. -/
def fraction? : List Char → Scanned (List Char)
  | '.' :: rest => digits? isDigit rest
  | _ => none

/-- A decimal fraction `digits * 10 ^ exponent`. -/
structure Decimal where
  negative : Bool
  digits : List Char
  exponent : Int

namespace Decimal

/-- The least number that rounds to infinity as a float of 64 bits: the largest float and half the
distance to what would be the next. -/
def infinite : Nat := Nat.pow 2 1024 - Nat.pow 2 970

/-- Whether the number without its sign rounds to infinity. Far from the bound the number of digits
decides. -/
def overflows (d : Decimal) : Bool :=
  let m := value 10 d.digits
  if m = 0 then false
  else
    let places := (Nat.repr m).length + d.exponent
    if places > 310 then true
    else if places < 300 then false
    else if 0 ≤ d.exponent then infinite ≤ m * Nat.pow 10 d.exponent.toNat
    else infinite * Nat.pow 10 (-d.exponent).toNat ≤ m

end Decimal

/-- A float in decimal notation. -/
def decimalFloat? (text : List Char) : Scanned Decimal :=
  let s := sign text
  match decimalDigits? s.2 with
  | none => none
  | some (whole, rest) =>
    match fraction? rest with
    | some (part, rest) =>
      match exponent? rest with
      | some (e, rest) => some (⟨s.1, whole ++ part, e - part.length⟩, rest)
      | none => some (⟨s.1, whole ++ part, -part.length⟩, rest)
    | none => (exponent? rest).map fun r => (⟨s.1, whole, r.1⟩, r.2)

/-- Infinity or no number, with its sign. -/
def specialFloat? (text : List Char) : Option (List Char) :=
  match (sign text).2 with
  | 'i' :: 'n' :: 'f' :: rest => some rest
  | 'n' :: 'a' :: 'n' :: rest => some rest
  | _ => none

/-- The text behind a float. -/
def float? (text : List Char) : Option (List Char) :=
  match decimalFloat? text with
  | some (d, rest) => if !d.negative && d.overflows then none else some rest
  | none => specialFloat? text

theorem fits_of_integer? {text rest : List Char} {n : Int} (h : integer? text = some (n, rest)) :
    fits n = true := by
  unfold integer? at h
  simp only [Option.filter_eq_some_iff] at h
  exact h.2

end ProgressDisplay.Toml
