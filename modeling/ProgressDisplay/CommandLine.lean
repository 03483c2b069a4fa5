import ProgressDisplay.Settings.Basic

/-!
# The command line

Arguments are read from left to right. An option that takes a value takes the very next argument,
whatever it looks like; of an option given twice the last counts. Help, the version and mistakes
end the reading at once.
-/

namespace ProgressDisplay.CommandLine

/-- The settings given on the command line. -/
structure Options where
  workers : Option Nat := none
  throttle : Option Nat := none
  scheme : Option String := none
  deriving DecidableEq, Repr

inductive Mistake where
  | missingWorkers
  | invalidWorkers (value : String)
  | missingThrottle
  | invalidThrottle (value : String)
  | missingScheme
  | unknown (argument : String)
  deriving DecidableEq, Repr

def Mistake.message : Mistake → String
  | missingWorkers => "Missing worker count"
  | invalidWorkers value => "Invalid worker count: " ++ value
  | missingThrottle => "Missing throttle milliseconds"
  | invalidThrottle value => "Invalid throttle: " ++ value
  | missingScheme => "Missing color scheme name"
  | unknown argument => "Unknown argument: " ++ argument ++ ". Use -h for help."

/-- What the arguments ask for. -/
inductive Request where
  | run (options : Options)
  | help
  | version
  | refuse (mistake : Mistake)
  deriving DecidableEq, Repr

/-- What an argument is. -/
inductive Argument where
  | help
  | version
  | workers
  | throttle
  | scheme
  | other
  deriving DecidableEq, Repr

def argument (text : String) : Argument :=
  if text = "-h" ∨ text = "--help" then .help
  else if text = "-v" ∨ text = "--version" then .version
  else if text = "-w" ∨ text = "--workers" then .workers
  else if text = "-t" ∨ text = "--throttle" then .throttle
  else if text = "--scheme" then .scheme
  else .other

/-- A number as it is written on the command line. -/
def number? (text : String) : Option Nat := Text.number? Text.bound64 text.toList

/-- Reads arguments, given the options read before them. -/
def read (options : Options) : List String → Request
  | [] => .run options
  | first :: rest =>
    match argument first, rest with
    | .help, _ => .help
    | .version, _ => .version
    | .workers, [] => .refuse .missingWorkers
    | .workers, value :: rest =>
      match number? value with
      | some workers => read { options with workers := some workers } rest
      | none => .refuse (.invalidWorkers value)
    | .throttle, [] => .refuse .missingThrottle
    | .throttle, value :: rest =>
      match number? value with
      | some throttle => read { options with throttle := some throttle } rest
      | none => .refuse (.invalidThrottle value)
    | .scheme, [] => .refuse .missingScheme
    | .scheme, value :: rest => read { options with scheme := some value } rest
    | .other, _ => .refuse (.unknown first)

/-- What the arguments of the program ask for. -/
def parse (arguments : List String) : Request := read {} arguments

/-- The settings with those given on the command line in place of others. -/
def Options.apply (o : Options) (s : Settings) : Settings where
  throttle := o.throttle.getD s.throttle
  workers := o.workers.getD s.workers
  scheme := o.scheme.getD s.scheme

/-! ## Answers in place of a run -/

/-- How a program ends: its exit code and what it writes. -/
structure Ending where
  code : Nat
  output : String := ""
  errors : String := ""
  deriving DecidableEq, Repr

/-- The name of the program with its version. -/
def nameAndVersion : String := "buildconsole 0.1.0"

/-- Lines, each with its end. -/
def lines (texts : List String) : String := String.join (texts.map fun t => t ++ "\n")

def helpText : String :=
  lines
    [nameAndVersion ++ " - live build progress demo",
      "",
      "Usage: buildconsole [OPTIONS]",
      "",
      "Options:",
      "  -w, --workers <N>     Worker lines below the status line (max 8)",
      "  -t, --throttle <MS>   Minimum milliseconds between redraws",
      "  --scheme <NAME>       Color scheme",
      "  -v, --version         Show version",
      "  -h, --help            Show this help",
      "",
      "Color schemes: " ++ ", ".intercalate (Scheme.all.map Scheme.name),
      "",
      "Configuration: ~/.buildconsole/config.toml",
      "Log file:      ~/.buildconsole/buildconsole.log (BUILDCONSOLE_LOG=debug for more)"]

/-- How a program ends that is not to run. -/
def Request.ending? : Request → Option Ending
  | run _ => none
  | help => some { code := 0, errors := helpText }
  | version => some { code := 0, errors := lines [nameAndVersion] }
  | refuse mistake =>
    some
      { code := 1
        errors := lines ["Error: " ++ mistake.message, "Use --help for usage information"] }

end ProgressDisplay.CommandLine
