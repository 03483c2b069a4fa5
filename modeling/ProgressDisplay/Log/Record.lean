import ProgressDisplay.Text.Numeral

/-!
# Log records

A record has a level, the more urgent the lower its rank, and a target: the path of the part of the
program that it comes from. Beside its message it may hold named data.
-/

namespace ProgressDisplay.Log

/-- The levels of records, the most urgent first. No record has the level `off`. -/
inductive Level where
  | off
  | error
  | warn
  | info
  | debug
  | trace
  deriving DecidableEq, Repr

namespace Level

def all : List Level := [off, error, warn, info, debug, trace]

def rank : Level → Nat
  | off => 0
  | error => 1
  | warn => 2
  | info => 3
  | debug => 4
  | trace => 5

def name : Level → String
  | off => "OFF"
  | error => "ERROR"
  | warn => "WARN"
  | info => "INFO"
  | debug => "DEBUG"
  | trace => "TRACE"

/-- The level that a text stands for: its name, in any case, or its rank. -/
def ofText? (text : List Char) : Option Level :=
  match Text.number? Text.bound64 text with
  | some rank => all[rank]?
  | none => all.find? fun level => level.name.toList.map Char.toLower = text.map Char.toLower

theorem ofText?_name (level : Level) : ofText? level.name.toList = some level := by
  cases level <;> decide

theorem all_rank (level : Level) : all[level.rank]? = some level := by
  cases level <;> rfl

end Level

structure Record where
  level : Level
  target : String
  /-- the names of its data -/
  data : List String := []
  message : String
  deriving DecidableEq, Repr

/-- The message of a record counts as data of that name. -/
def Record.holds (r : Record) (name : String) : Bool := name = "message" || r.data.contains name

/-- The line that a record is written as. -/
def Record.line (r : Record) : String :=
  r.level.name ++ " " ++ r.target ++ ": " ++ r.message

end ProgressDisplay.Log
