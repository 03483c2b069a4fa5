import ProgressDisplay.Live.Display
import ProgressDisplay.Style.Scheme
import ProgressDisplay.Text.Numeral
import ProgressDisplay.Toml.Document

/-!
# Settings

What a user can choose: the time between two redraws, the number of worker lines, and the color
scheme. A settings file is a document that may give any of them; what else it holds is ignored, but
a setting of the wrong kind makes the whole file unusable.
-/

namespace ProgressDisplay

structure Settings where
  /-- the least time between two redraws, in milliseconds -/
  throttle : Nat := Display.defaultThrottle
  /-- the number of worker lines asked for -/
  workers : Nat := 4
  /-- the name of the color scheme -/
  scheme : String := "default"
  deriving DecidableEq, Repr

namespace Settings

/-- The number of worker lines that are shown. -/
def shownWorkers (s : Settings) : Nat := StatusBlock.workerLines s.workers

/-- The color scheme that is meant. -/
def colors (s : Settings) : Scheme := Scheme.named s.scheme

/-- A number that a setting gives. It may not be negative. -/
def numberOf (fallback : Nat) : Option Toml.Entry → Option Nat
  | none => some fallback
  | some (.value (.integer n)) => if 0 ≤ n then some n.toNat else none
  | some _ => none

/-- A text that a setting gives. -/
def textOf (fallback : String) : Option Toml.Entry → Option String
  | none => some fallback
  | some (.value (.string s)) => some s
  | some _ => none

/-- The settings of a document. -/
def ofDocument? (d : Toml.Document) : Option Settings := do
  let fallback : Settings := {}
  let throttle ← numberOf fallback.throttle (d.value? "throttle_ms")
  let workers ← numberOf fallback.workers (d.value? "worker_labels")
  let scheme ← textOf fallback.scheme (d.value? "color_scheme")
  return { throttle, workers, scheme }

/-- The settings that a text gives, if it is a document of the right kind. -/
def ofString? (text : String) : Option Settings := (Toml.Document.ofString? text).bind ofDocument?

end Settings

end ProgressDisplay
