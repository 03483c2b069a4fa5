import ProgressDisplay.Text.Blank

/-!
# Modes of patterns

Flags within a pattern change how the rest of it is read. Of what they change a `Mode` holds what
decides whether the pattern can be read.

* `skip_of_not_spaced`: only a spaced pattern has blanks that count for nothing.
-/

namespace ProgressDisplay.Log.Pattern

structure Mode where
  /-- Letters match without regard to case. -/
  ignoresCase : Bool := false
  /-- A pattern matches characters, and not bytes. -/
  unicode : Bool := true
  /-- Blanks and comments in the pattern count for nothing. -/
  spaced : Bool := false
  deriving DecidableEq, Repr

/-- What follows blanks and comments. A comment ends with its line. -/
def afterBlanks (inComment : Bool) : List Char → List Char
  | [] => []
  | c :: rest =>
    if inComment then afterBlanks (c ≠ '\n') rest
    else if Text.isBlank c then afterBlanks false rest
    else if c = '#' then afterBlanks true rest
    else c :: rest

namespace Mode

/-- What follows the characters that count for nothing. -/
def skip (m : Mode) (text : List Char) : List Char :=
  if m.spaced then afterBlanks false text else text

/-- The first character behind blanks. A sharp is passed over, but what it makes a comment is
not. -/
def next? (m : Mode) (text : List Char) : Option Char :=
  if m.spaced then
    match text.dropWhile Text.isBlank with
    | '#' :: rest => (rest.dropWhile Text.isBlank).head?
    | rest => rest.head?
  else text.head?

/-- The flags of a pattern. -/
def flagNames : List Char := ['i', 'm', 's', 'U', 'u', 'R', 'x']

/-- The mode with a flag set or unset. -/
def withFlag (value : Bool) (m : Mode) : Char → Mode
  | 'i' => { m with ignoresCase := value }
  | 'u' => { m with unicode := value }
  | 'x' => { m with spaced := value }
  | _ => m

/-- The mode that flags lead to. Those behind a minus sign are unset. None is written twice, and a
minus sign has a flag behind it. -/
def withFlags? (m : Mode) (flags : List Char) : Option Mode :=
  if flags.all (fun c => c = '-' || flagNames.contains c) && flags.eraseDups = flags &&
      flags.getLast? ≠ some '-' then
    let setting := flags.takeWhile (· ≠ '-')
    let unsetting := flags.dropWhile (· ≠ '-')
    some (unsetting.foldl (withFlag false) (setting.foldl (withFlag true) m))
  else none

/-- Whether a character may stand for itself. Without tables of letters in both cases no character
can be matched without regard to case, except for bytes. As a byte, only a character of ASCII is
part of text. -/
def allowsChar (m : Mode) (isByte : Bool) (c : Char) : Bool :=
  if m.unicode then !m.ignoresCase else !isByte || c.toNat < 0x80

/-- Whether a pattern may name all characters but some. Some bytes are no text. -/
def allowsRest (m : Mode) : Bool := m.unicode

/-- Whether a pattern may name a kind of characters, such as the digits. Without tables of kinds it
may only for bytes. -/
def allowsKind (m : Mode) (negated : Bool) : Bool := !m.unicode && !negated

/-- Whether a pattern may name the ends of words. They are found only between bytes. -/
def allowsWordEnd (m : Mode) : Bool := !m.unicode

theorem skip_of_not_spaced {m : Mode} (h : m.spaced = false) (text : List Char) :
    m.skip text = text := by
  simp [skip, h]

end Mode

end ProgressDisplay.Log.Pattern
