import ProgressDisplay.Demo.Run

/-!
# The program

Reads the command line, the environment and the settings file, and plays the simulated build on
standard output, pausing where the build pauses.
-/

namespace ProgressDisplay.Program

open ProgressDisplay

def environment : IO Settings.Environment := do
  return {
    home := ← IO.getEnv "HOME"
    userProfile := ← IO.getEnv "USERPROFILE"
    throttle := ← IO.getEnv "BUILDCONSOLE_THROTTLE"
    log := ← IO.getEnv "BUILDCONSOLE_LOG" }

/-- The settings file, as it is found. -/
def settingsFile (e : Settings.Environment) : IO Settings.File := do
  match e.directory? with
  | none => return .absent
  | some directory =>
    try
      return .content (← IO.FS.readBinFile (Settings.within directory Settings.fileName))
    catch
      | .noFileOrDirectory .. => return .absent
      | _ => return .unreadable

/-- Appends the records that the filter of the environment keeps to the log. -/
def log (e : Settings.Environment) (records : List Log.Record) : IO Unit := do
  try
    if let some directory := e.directory? then
      IO.FS.createDirAll directory
    let handle ← IO.FS.Handle.mk (Demo.logPath e) .append
    for record in records.filter (Log.Filter.ofSetting e.log).keeps do
      handle.putStrLn record.line
  catch _ => return

/-- The columns of the terminal, as far as the environment tells. -/
def columns : IO (Option Nat) := do
  return ((← IO.getEnv "COLUMNS").bind String.toNat?)

/-- The reason that the operating system gives for a failure. -/
def reason : IO.Error → String
  | .resourceVanished code details => details ++ " (os error " ++ Nat.repr code.toNat ++ ")"
  | e => toString e

/-- Writes what the display has emitted, and leaves it with nothing more to write. -/
def deliver (output : IO.FS.Stream) (d : Display) : IO (Attempt DisplayError Display) := do
  let emitted := d.page.writer.device.output
  let d := d.withPage { d.page with writer.device.output := [] }
  try
    output.putStr (Emission.renderAll emitted)
    output.flush
    return .done d
  catch e => return ⟨d, some (.device ⟨reason e⟩)⟩

/-- The display at the present moment. -/
def atPresent (d : Display) : IO Display := return d.atTime (← IO.monoMsNow)

/-- Sleeps for spans of time, with a look at the alarms after each. What they emit can fail to be
written; then the display stops. -/
def sleep (output : IO.FS.Stream) : List Nat → Display → IO Display
  | [], d => return d
  | milliseconds :: rest, d => do
    IO.sleep milliseconds.toUInt32
    sleep output rest (Display.stopOnFailure (← deliver output (← atPresent d))).state

/-- Plays actions until one fails. -/
def play (output : IO.FS.Stream) : List Demo.Action → Display → IO (Attempt DisplayError Display)
  | [], d => return .done d
  | .pause milliseconds :: rest, d => do
    let spans := d.timer.split (← IO.monoMsNow) milliseconds
    play output rest (← sleep output spans d)
  | action :: rest, d => do
    let performed := Demo.perform (← atPresent d) action
    let delivered ← deliver output performed.state
    match performed.failure.or delivered.failure with
    | none => play output rest delivered.state
    | some failure => return { delivered with failure := some failure }

/-- Runs the build with the options of the command line. -/
def runWith (options : CommandLine.Options) : IO CommandLine.Ending := do
  let e ← environment
  let loaded := Settings.load e (← settingsFile e)
  let settings := options.apply loaded.settings
  log e (Demo.recordsAtStart loaded.warnings)
  let output ← IO.getStdout
  let begun ← IO.monoMsNow
  let display := Demo.start settings {} (← output.isTty) (← columns)
  let built ← play output (Demo.build (Demo.crew display)) display
  let elapsed := (← IO.monoMsNow) - begun
  let result := Demo.finish (Demo.seconds elapsed) built
  let delivered ← deliver output result.display
  log e (Demo.recordsAfterwards result)
  return Demo.ending (result.failure.or delivered.failure)

end ProgressDisplay.Program

open ProgressDisplay in
def main (arguments : List String) : IO UInt32 := do
  let request := CommandLine.parse arguments
  let ending ← match request with
    | .run options => Program.runWith options
    | _ => pure (request.ending?.getD { code := 0 })
  (← IO.getStdout).putStr ending.output
  (← IO.getStderr).putStr ending.errors
  return ending.code.toUInt32
