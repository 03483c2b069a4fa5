import ProgressDisplay.Toml.Number

/-!
# Dates and times

A date, a time of day, or both, the last with an optional offset. Only their form and ranges are
checked; no value is kept.
-/

namespace ProgressDisplay.Toml

/-- A number of exactly so many digits. -/
def fixedDigits? (count : Nat) (text : List Char) : Scanned Nat :=
  let front := text.take count
  if front.length = count ∧ front.all isDigit then some (value 10 front, text.drop count) else none

/-- A number of two digits within bounds. -/
def pair? (least most : Nat) (text : List Char) : Scanned Nat :=
  (fixedDigits? 2 text).filter fun r => least ≤ r.1 && r.1 ≤ most

/-- The text behind a character. -/
def past? (c : Char) : List Char → Option (List Char)
  | d :: rest => if d = c then some rest else none
  | [] => none

def isLeap (year : Nat) : Bool := year % 4 = 0 && (year % 100 ≠ 0 || year % 400 = 0)

def daysOf (year month : Nat) : Nat :=
  if month = 2 then (if isLeap year then 29 else 28)
  else if month = 4 ∨ month = 6 ∨ month = 9 ∨ month = 11 then 30
  else 31

def date? (text : List Char) : Option (List Char) := do
  let (year, text) ← fixedDigits? 4 text
  let text ← past? '-' text
  let (month, text) ← pair? 1 12 text
  let text ← past? '-' text
  let (_, text) ← pair? 1 (daysOf year month) text
  return text

/-- The text behind a point and the digits of a part of a second, if they are there. -/
def afterFraction : List Char → List Char
  | '.' :: c :: rest => if isDigit c then rest.dropWhile isDigit else '.' :: c :: rest
  | text => text

def time? (text : List Char) : Option (List Char) := do
  let (_, text) ← pair? 0 23 text
  let text ← past? ':' text
  let (_, text) ← pair? 0 59 text
  let text ← past? ':' text
  let (_, text) ← pair? 0 60 text
  return afterFraction text

/-- An offset in hours and minutes. -/
def offset? : List Char → Option (List Char)
  | 'Z' :: rest | 'z' :: rest => some rest
  | '+' :: rest | '-' :: rest => do
    let (_, text) ← pair? 0 23 rest
    let text ← past? ':' text
    let (_, text) ← pair? 0 59 text
    return text
  | _ => none

/-- The time behind a date, with its offset. -/
def timeAfterDate? : List Char → Option (List Char)
  | 'T' :: rest | 't' :: rest | ' ' :: rest => (time? rest).map fun r => (offset? r).getD r
  | _ => none

/-- The text behind a date, a time, or both. -/
def dateTime? (text : List Char) : Option (List Char) :=
  match date? text with
  | some rest => some ((timeAfterDate? rest).getD rest)
  | none => time? text

end ProgressDisplay.Toml
