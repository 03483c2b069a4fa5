import ProgressDisplay.Style.Basic

/-!
# Color schemes

A `Scheme` gives each role a color or none, and `Scheme.rendition` resolves a style to what the
terminal is told to do. Headers, failures and errors are always bold, so that they stand out
without color.
-/

namespace ProgressDisplay

/-- A color by its red, green and blue parts. -/
structure Rgb where
  red : UInt8
  green : UInt8
  blue : UInt8
  deriving DecidableEq, Repr

/-- How text is drawn: in a color or the terminal's own, and with which emphasis. -/
structure Rendition where
  foreground : Option Rgb := none
  emphasis : Emphasis := {}
  deriving DecidableEq, Repr

namespace Rendition

def plain : Rendition := {}

/-- Whether nothing has to be switched on, hence nothing off. -/
def isPlain (r : Rendition) : Bool := r == plain

end Rendition

/-- How each style is drawn. -/
abbrev Palette := Style → Rendition

/-- The palette that draws everything plainly, emphasized text too. -/
def Palette.blank : Palette := fun _ => .plain

/-- A named choice of colors for the roles. -/
structure Scheme where
  name : String
  header : Option Rgb := none
  identifier : Option Rgb := none
  description : Option Rgb := none
  progressStatus : Option Rgb := none
  success : Option Rgb := none
  failure : Option Rgb := none
  info : Option Rgb := none
  error : Option Rgb := none
  deriving DecidableEq, Repr

namespace Scheme

/-- The scheme in use when no other is named. -/
def default : Scheme where
  name := "default"
  identifier := some ⟨0, 150, 0⟩
  description := some ⟨160, 160, 0⟩
  progressStatus := some ⟨100, 150, 255⟩
  success := some ⟨0, 180, 0⟩
  failure := some ⟨200, 0, 0⟩
  info := some ⟨160, 160, 0⟩
  error := some ⟨200, 0, 0⟩

def solarizedDark : Scheme where
  name := "solarized-dark"
  header := some ⟨147, 161, 161⟩
  identifier := some ⟨133, 153, 0⟩
  description := some ⟨181, 137, 0⟩
  progressStatus := some ⟨38, 139, 210⟩
  success := some ⟨133, 153, 0⟩
  failure := some ⟨220, 50, 47⟩
  info := some ⟨42, 161, 152⟩
  error := some ⟨220, 50, 47⟩

def monokai : Scheme where
  name := "monokai"
  header := some ⟨248, 248, 242⟩
  identifier := some ⟨166, 226, 46⟩
  description := some ⟨230, 219, 116⟩
  progressStatus := some ⟨102, 217, 239⟩
  success := some ⟨166, 226, 46⟩
  failure := some ⟨249, 38, 114⟩
  info := some ⟨174, 129, 255⟩
  error := some ⟨249, 38, 114⟩

def nord : Scheme where
  name := "nord"
  header := some ⟨216, 222, 233⟩
  identifier := some ⟨163, 190, 140⟩
  description := some ⟨235, 203, 139⟩
  progressStatus := some ⟨136, 192, 208⟩
  success := some ⟨163, 190, 140⟩
  failure := some ⟨191, 97, 106⟩
  info := some ⟨129, 161, 193⟩
  error := some ⟨191, 97, 106⟩

/-- No colors; emphasis is still drawn. -/
def plain : Scheme where
  name := "plain"

/-- A character in lower case, as far as the names of schemes need it: the capitals of ASCII and
the Kelvin sign are the only characters whose lower case is a lone ASCII letter. -/
def lowerCase (c : Char) : Char := if c = '\u212A' then 'k' else c.toLower

/-- The scheme that a name stands for, in any case. A name that is not known stands for the
default scheme. -/
def named (name : String) : Scheme :=
  let lower := name.map lowerCase
  if lower = "solarized-dark" ∨ lower = "solarized_dark" ∨ lower = "solarized" then solarizedDark
  else if lower = "monokai" then monokai
  else if lower = "nord" then nord
  else if lower = "plain" ∨ lower = "none" then plain
  else default

/-- All schemes, in the order in which they are listed to the user. -/
def all : List Scheme := [default, solarizedDark, monokai, nord, plain]

/-- The color of a role. -/
def color (scheme : Scheme) : Role → Option Rgb
  | .normal => none
  | .header => scheme.header
  | .identifier => scheme.identifier
  | .description => scheme.description
  | .progressStatus => scheme.progressStatus
  | .success => scheme.success
  | .failure => scheme.failure
  | .info => scheme.info
  | .error => scheme.error

/-- Whether text of a role is bold whatever its emphasis. -/
def standsOut : Role → Bool
  | .header | .failure | .error => true
  | _ => false

/-- How the scheme draws a style. -/
def rendition (scheme : Scheme) : Palette := fun style =>
  { foreground := scheme.color style.role
    emphasis := style.emphasis ∪ { bold := standsOut style.role } }

end Scheme

end ProgressDisplay
