import CompilerDriver.Configuration
import CompilerDriver.Form.CheckTime
import CompilerDriver.Update.Check
import CompilerDriver.World
/-!
The file that keeps the time of the last check for updates. A file that cannot be read or understood counts as
none.
-/
namespace CompilerDriver.Update

/-- The name of the file below the directory for the user's settings. -/
def checkFileName : String := "update-check.json"

/-- The usual path of the file. -/
def checkFile? (w : World) : Option String :=
  w.userDirectory?.map fun dir => File.Path.join (File.Path.join dir "pshdl") checkFileName

/-- Why the time could not be written. -/
inductive SaveError where
  | directory
  | file
deriving DecidableEq

/-- The error in words. -/
def SaveError.message : SaveError → String
  | directory => "Failed to create state directory"
  | file => "Failed to write update state"

/-- The time of the last check. -/
def loadCheckTime (w : World) (path : String) : Option Time.Instant :=
  match w.readText path with
  | .ok text => (readCheckTime text).toOption
  | .error _ => none

/-- Writes the time of the last check, in a directory that is made if it is missing. -/
def saveCheckTime (w : World) (path : String) (t : Time.Instant) : Except SaveError World :=
  let made := match File.Path.parent? path with
    | some dir => w.files.createDirs w.cwd dir
    | none => .ok w.files
  match made with
  | .error _ => .error .directory
  | .ok files =>
    match ({ w with files } : World).writeText path (writeCheckTime t) with
    | .error _ => .error .file
    | .ok w => .ok w

/-- A check is due, by the settings and the time in the file. -/
def dueIn (w : World) (u : UpdateSettings) (path : Option String) (now : Time.Instant) : Bool :=
  u.enabled && isDue (path.bind (loadCheckTime w)) now u.intervalDays

end CompilerDriver.Update
