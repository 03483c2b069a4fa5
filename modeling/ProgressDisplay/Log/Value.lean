import ProgressDisplay.Log.Pattern

/-!
# Values in directives

A directive may ask for data of a certain value. The value is a number or a pattern. Only a number
may begin with a plus sign, since in a pattern that is an operator.

* `isValue_of_isPattern`: every pattern is a value.
-/

namespace ProgressDisplay.Log

namespace Value

/-- A text without a sign in front of it. -/
def unsigned : List Char → List Char
  | '+' :: rest => rest
  | '-' :: rest => rest
  | text => text

/-- The exponent of a number, which may be left out. -/
def isExponent : List Char → Bool
  | [] => true
  | c :: rest =>
    (c = 'e' || c = 'E') && !(unsigned rest).isEmpty && (unsigned rest).all Char.isDigit

/-- Digits with a point among them or at one end, and an exponent. -/
def isDecimal (text : List Char) : Bool :=
  let whole := text.takeWhile Char.isDigit
  match text.dropWhile Char.isDigit with
  | '.' :: rest =>
    !(whole.isEmpty && (rest.takeWhile Char.isDigit).isEmpty) &&
      isExponent (rest.dropWhile Char.isDigit)
  | rest => !whole.isEmpty && isExponent rest

/-- The words for what is no finite number, in any case. -/
def infinities : List String := ["inf", "infinity", "nan"]

def isNumber (text : List Char) : Bool :=
  isDecimal (unsigned text) ||
    infinities.contains (String.ofList ((unsigned text).map Char.toLower))

end Value

/-- Whether a directive may ask for a value. -/
def isValue (text : List Char) : Bool := Value.isNumber text || isPattern text

theorem isValue_of_isPattern {text : List Char} (h : isPattern text = true) :
    isValue text = true := by
  simp [isValue, h]

end ProgressDisplay.Log
