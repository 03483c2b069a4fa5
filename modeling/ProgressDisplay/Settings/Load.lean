import ProgressDisplay.Settings.Basic
import ProgressDisplay.Text.Blank

/-!
# Loading the settings

The settings file lies in a directory of its own in the user's home directory. A file that cannot
be used counts as one that gives no setting, and leaves a warning. The environment may override the
throttle.

* `loadFile_absent`: without a file the defaults are in force.
-/

namespace ProgressDisplay.Settings

/-- The variables of the environment that matter, where they are set. -/
structure Environment where
  home : Option String := none
  /-- the home directory where no other is named -/
  userProfile : Option String := none
  throttle : Option String := none
  /-- the filter of the log -/
  log : Option String := none
  deriving DecidableEq, Repr

/-- A name within a directory. -/
def within (directory name : String) : String :=
  if directory = "" ∨ directory.endsWith "/" then directory ++ name else directory ++ "/" ++ name

/-- The directory of the settings file and of the log, if there is a home directory. -/
def Environment.directory? (e : Environment) : Option String :=
  (e.home.or e.userProfile).map fun home => within home ".buildconsole"

/-- The name of the settings file within its directory. -/
def fileName : String := "config.toml"

/-- What is found where the settings file should be. -/
inductive File where
  | absent
  /-- something that cannot be read, such as a directory -/
  | unreadable
  | content (bytes : ByteArray)

/-- Why something was ignored. -/
inductive Warning where
  | unreadableFile
  | invalidFile
  | invalidThrottle (value : String)
  deriving DecidableEq, Repr

def Warning.message : Warning → String
  | unreadableFile => "ignoring settings file: it cannot be read"
  | invalidFile => "ignoring settings file: it gives no settings"
  | invalidThrottle value => "ignoring throttle of the environment: " ++ value

/-- The settings that are in force, and what was ignored on the way. -/
structure Loaded where
  settings : Settings := {}
  warnings : List Warning := []
  deriving DecidableEq, Repr

/-- The settings of a file that should be there. -/
def ofFile : File → Loaded
  | .absent | .unreadable => { warnings := [.unreadableFile] }
  | .content bytes =>
    match String.fromUTF8? bytes with
    | none => { warnings := [.unreadableFile] }
    | some text =>
      match ofString? text with
      | none => { warnings := [.invalidFile] }
      | some settings => { settings }

/-- The settings of a file that may be there. -/
def loadFile : File → Loaded
  | .absent => {}
  | file => ofFile file

/-- The settings with the throttle that the environment asks for. -/
def override (value : Option String) (loaded : Loaded) : Loaded :=
  match value with
  | none => loaded
  | some text =>
    match Text.number? Text.bound64 (Text.trim text.toList) with
    | some throttle => { loaded with settings := { loaded.settings with throttle } }
    | none => { loaded with warnings := loaded.warnings ++ [.invalidThrottle text] }

/-- The settings in force, given what lies in the directory of the settings file. Without a home
directory there is no such file. -/
def load (e : Environment) (file : File) : Loaded :=
  override e.throttle (if e.directory?.isSome then loadFile file else {})

theorem loadFile_absent : loadFile .absent = {} := rfl

end ProgressDisplay.Settings
