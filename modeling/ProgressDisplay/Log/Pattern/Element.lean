import ProgressDisplay.Log.Pattern.Mode

/-!
# Elements of patterns

The smallest parts of a pattern: characters, which may be escaped or given by their code, and what
escapes stand for.

* `escaped?_backslash`: a backslash escapes itself.
-/

namespace ProgressDisplay.Log.Pattern

inductive Element where
  /-- a character that stands for itself. It may be given as a byte. -/
  | char (c : Char) (isByte : Bool)
  /-- any character but a line feed -/
  | any
  /-- an end of the text or of a line -/
  | edge
  /-- an end of a word, or what is none -/
  | wordEnd
  /-- a kind of characters, or all but these -/
  | kind (negated : Bool)
  deriving DecidableEq, Repr

namespace Element

def hexDigit? (c : Char) : Option Nat :=
  if '0' ≤ c ∧ c ≤ '9' then some (c.toNat - '0'.toNat)
  else if 'a' ≤ c ∧ c ≤ 'f' then some (c.toNat - 'a'.toNat + 10)
  else if 'A' ≤ c ∧ c ≤ 'F' then some (c.toNat - 'A'.toNat + 10)
  else none

/-- Reads a number of hexadecimal digits, behind those that gave `value`. -/
def code? (m : Mode) : Nat → Nat → List Char → Option (Nat × List Char)
  | 0, value, text => some (value, text)
  | digits + 1, value, text =>
    match m.skip text with
    | [] => none
    | c :: rest =>
      match hexDigit? c with
      | none => none
      | some d => code? m digits (16 * value + d) rest

/-- The character with a code of so many digits. A code of two digits gives a byte. -/
def coded? (m : Mode) (digits : Nat) (text : List Char) : Option (Element × List Char) :=
  match code? m digits 0 text with
  | none => none
  | some (code, rest) =>
    if code.isValidChar then some (.char (.ofNat code) (digits = 2), rest) else none

/-- The control characters that letters stand for behind a backslash. -/
def control? : Char → Option Char
  | 'a' => some '\x07'
  | 't' => some '\t'
  | 'n' => some '\n'
  | 'v' => some '\x0B'
  | 'f' => some '\x0C'
  | 'r' => some '\r'
  | _ => none

/-- What a character that takes no more of the text stands for behind a backslash. -/
def ofEscape? (c : Char) : Option Element :=
  if ['d', 's', 'w'].contains c then some (.kind false)
  else if ['D', 'S', 'W'].contains c then some (.kind true)
  else if ['A', 'z'].contains c then some .edge
  else if ['b', 'B', '<', '>'].contains c then some .wordEnd
  else
    match control? c with
    | some control => some (.char control false)
    | none => if c.toNat < 0x80 && !c.isAlphanum then some (.char c false) else none

/-- Reads what stands behind a backslash. -/
def escaped? (m : Mode) : List Char → Option (Element × List Char)
  | [] => none
  | 'x' :: rest => coded? m 2 rest
  | 'u' :: rest => coded? m 4 rest
  | 'U' :: rest => coded? m 8 rest
  | c :: rest => (ofEscape? c).map (·, rest)

/-- Whether a pattern may hold an element outside of a set. -/
def isAllowed (m : Mode) : Element → Bool
  | char c isByte => m.allowsChar isByte c
  | any => m.allowsRest
  | edge => true
  | wordEnd => m.allowsWordEnd
  | kind negated => m.allowsKind negated

/-- Whether a set may hold an element. In a set every character is a byte where bytes are
matched. -/
def isAllowedInSet (m : Mode) : Element → Bool
  | char c _ => m.allowsChar true c
  | kind negated => m.allowsKind negated
  | _ => false

theorem escaped?_backslash (m : Mode) (rest : List Char) :
    escaped? m ('\\' :: rest) = some (.char '\\' false, rest) := rfl

end Element

end ProgressDisplay.Log.Pattern
