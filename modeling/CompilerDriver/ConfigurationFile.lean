import CompilerDriver.Console
import CompilerDriver.Form.Configuration
import CompilerDriver.World
/-!
Finding, reading and writing the configuration file.

A file that cannot be read or understood is reported and replaced by the usual configuration, so the driver
always has one.
-/
namespace CompilerDriver.ConfigurationFile

/-- The environment variable that names the file. -/
def variableName : String := "PSHDL_CONFIG"

/-- The name of the file in a working directory. -/
def localName : String := ".pshdl.config.json"

/-- The path of the file below the directory for the user's settings. -/
def userPath (dir : String) : String :=
  File.Path.join (File.Path.join dir "pshdl") "config.json"

/-- The file to read. One that is named explicitly is taken even if it is not there; else the file in the
directory `cwd` or in the user's directory is taken, if it is there. -/
def locate (isFile : String → Bool) (explicit : Option String) (cwd : String) (user : Option String) :
    Option String :=
  match explicit with
  | some path => some path
  | none =>
    let here := File.Path.join cwd localName
    if isFile here then some here
    else (user.map userPath).filter isFile

/-- Why there is no configuration in a file. -/
structure Error where
  path : String
  message : String
deriving DecidableEq

/-- The error in words. -/
def Error.text (e : Error) : String := s!"invalid config {e.path}: {e.message}"

/-- Reads a configuration file. -/
def load (w : World) (path : String) : Except Error Configuration :=
  match w.readText path with
  | .error f => .error ⟨path, f.message⟩
  | .ok text =>
    match Configuration.read text with
    | .error m => .error ⟨path, m⟩
    | .ok c => .ok c

/-- Reads a configuration file, or else takes the usual configuration and says so. -/
def loadOrDefault (w : World) (path : String) : Configuration × List Event :=
  let noted : Event := .log .debug s!"Loading config from {path}"
  match load w path with
  | .ok c => (c, [noted])
  | .error e => ({}, [noted, .log .warn s!"{e.text}; using defaults"])

/-- The configuration of a run. -/
def discover (w : World) : Configuration × List Event :=
  match locate w.isFile (w.env.get? variableName) w.cwd w.userDirectory? with
  | some path => loadOrDefault w path
  | none => ({}, [])

/-- Writes a configuration file. -/
def save (w : World) (path : String) (c : Configuration) : Except File.Fault World :=
  w.writeText path c.write

end CompilerDriver.ConfigurationFile
