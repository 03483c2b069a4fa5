import ProgressDisplay.CommandLine
import ProgressDisplay.Demo.Script
import ProgressDisplay.Log.Filter
import ProgressDisplay.Settings.Load

/-!
# Running the simulated build

The build is shown on standard output: live if that is a terminal, and otherwise as plain output.
Whatever fails is reported on standard error, together with its cause. What happens is recorded in
a log, as far as the filter of the log keeps it.

* `finish_failure_none_iff`: a run succeeds if the build does and its conclusion does.
-/

namespace ProgressDisplay.Demo

/-- Carries out an action. A pause does nothing to the display. -/
def perform (d : Display) : Action → Attempt DisplayError Display
  | .event e => d.accept e
  | .output requests => d.output requests
  | .pause _ => .done d

/-- The display that the program starts on. -/
def start (s : Settings) (device : Device) (interactive : Bool) (columns : Option Nat) : Display :=
  Display.start (.start device s.colors.rendition s.shownWorkers) interactive columns s.throttle

/-- A duration in seconds, to one place. -/
def seconds (milliseconds : Nat) : String :=
  let tenths := (milliseconds + 50) / 100
  Nat.repr (tenths / 10) ++ "." ++ Nat.repr (tenths % 10)

/-- What ends a run: the last line of output, and then the block is taken off the screen. -/
def conclude (failed : Bool) (seconds : String) (d : Display) : Attempt DisplayError Display :=
  (d.output (outcome failed seconds)).andThen Display.close

/-- The result of a run: the display at its end, what the build failed with, whether the run was
concluded, and what the program fails with. -/
structure Result where
  display : Display
  buildFailure : Option DisplayError
  concluded : Bool
  failure : Option DisplayError

/-- Concludes a run. A failure of the conclusion wins over one of the build. -/
def finish (seconds : String) (built : Attempt DisplayError Display) : Result :=
  let concluded := conclude built.failure.isSome seconds built.state
  { display := concluded.state
    buildFailure := built.failure
    concluded := concluded.failure.isNone
    failure := concluded.failure.or built.failure }

/-- The number of workers: one for each worker line, and one if there is no such line. -/
def crew (d : Display) : Nat := max 1 d.page.block.workers.length

/-- The whole run, with no time passing. -/
def run (seconds : String) (d : Display) : Result :=
  finish seconds (Attempt.each (fun action d => perform d action) (build (crew d)) d)

/-! ## The log -/

/-- The target of the program's own records. Parts of the program have targets below it. -/
def logTarget : String := "buildconsole"

def partTarget (part : String) : String := logTarget ++ "::" ++ part

/-- The records of a run before the build: the program starts, warns of what it ignored, and has
its settings. -/
def recordsAtStart (warnings : List Settings.Warning) : List Log.Record :=
  [{ level := .info, target := logTarget, message := "buildconsole starting..." }] ++
    warnings.map (fun w =>
      { level := .warn, target := partTarget "config", message := w.message }) ++
    [{ level := .info, target := logTarget, data := ["config"], message := "configuration loaded" }]

/-- What is recorded of how operations get their lines. The operations of a build are nested: with
a line to show them on, a child takes the line of its parent and gives it back at its end. With no
line they only wait for one. -/
def recordsOfLines (hasLines : Bool) : List Log.Record :=
  let record (data : List String) (message : String) : Log.Record :=
    { level := .trace, target := partTarget "progress::allocator", data, message }
  if hasLines then
    [record ["id", "label"] "attached to free line",
      record ["id", "parent", "label"] "child takes over parent's line",
      record ["id", "label"] "line released",
      record ["parent"] "parent reclaims a line"]
  else [record ["id"] "no free line, queued"]

/-- What is recorded of a display on a terminal. -/
def recordsOfDisplay (d : Display) : List Log.Record :=
  recordsOfLines (!d.page.block.workers.isEmpty) ++
    [{ level := .trace, target := partTarget "console::status_area", data := ["rows"],
        message := "scrolling status area clear of text" },
      { level := .debug, target := partTarget "progress::renderer", data := ["events"],
        message := "progress flushed" },
      { level := .debug, target := partTarget "progress::scheduler",
        message := "flush scheduler stopped" },
      { level := .info, target := partTarget "progress::renderer",
        message := "status area closed" }]

/-- The records of a run from the build on. -/
def recordsAfterwards (r : Result) : List Log.Record :=
  (if r.display.interactive then recordsOfDisplay r.display else []) ++
    (match r.buildFailure with
    | some e =>
      [{ level := .error, target := logTarget, message := "build simulation failed: " ++ e.message }]
    | none => []) ++
    if r.concluded then
      [{ level := .info, target := logTarget, message := "buildconsole finished" }]
    else []

/-- The name of the log file. -/
def logName : String := "buildconsole.log"

/-- Where the log is written: beside the settings file, or in the working directory where there is
no home directory. -/
def logPath (e : Settings.Environment) : String :=
  match e.directory? with
  | some directory => Settings.within directory logName
  | none => logName

/-- How the program ends, given what it fails with. -/
def ending (failure : Option DisplayError) : CommandLine.Ending :=
  match failure with
  | none => { code := 0 }
  | some e =>
    let cause := match e.cause? with
      | some cause => ["", "Caused by:", "    " ++ cause]
      | none => []
    { code := 1, errors := CommandLine.lines (["Error: " ++ e.message] ++ cause) }

theorem finish_failure_none_iff (seconds : String) (built : Attempt DisplayError Display) :
    (finish seconds built).failure = none ↔
      (finish seconds built).concluded = true ∧ built.failure = none := by
  simp [finish, Option.or_eq_none_iff]

end ProgressDisplay.Demo
