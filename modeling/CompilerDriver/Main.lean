import CompilerDriver.Program.Launch
import CompilerDriver.Session
/-!
The command line of the driver: load what a run may look at, run, print.

Only the files that a run can read are loaded: the files of the configuration, the file of the last check, and
the directories that are searched for providers.
-/
namespace CompilerDriver.Main

/-- The variables that a run and the programs it starts may look at. -/
def variableNames : List String :=
  [ConfigurationFile.variableName, LogFilter.variableName, "XDG_CONFIG_HOME", "HOME", "PATH"]

/-- Adds a file. One that names the program that reads it counts as executable. -/
def addFile (w : World) (path : String) (content : ByteArray) : World :=
  let bytes := content.toList
  let executable := (StandIn.interpreter? bytes).isSome
  let made := ((File.Path.parent? path).map (w.files.createDirs w.cwd)).getD (.ok w.files)
  match made.toOption.bind fun files => (files.resolve w.cwd path).toOption.map (files, ·) with
  | some (files, place) => { w with files := .put (.file bytes executable) files place }
  | none => w

/-- Loads a file, if it is there. -/
def loadFile (w : World) (path : String) : IO World := do
  match ← (IO.FS.readBinFile path).toBaseIO with
  | .ok content => return addFile w path content
  | .error _ => return w

/-- Loads a directory with what is below it, so many levels deep. -/
def loadTree : Nat → World → String → IO World
  | 0, w, _ => return w
  | n + 1, w, dir => do
    match ← ((IO.FS.DirEntry.mk dir ".").path.readDir).toBaseIO with
    | .error _ => loadFile w dir
    | .ok entries =>
      let w := { w with files := (w.files.createDirs w.cwd dir).toOption.getD w.files }
      entries.toList.foldlM (fun w e => loadTree n w (File.Path.join dir e.fileName)) w

/-- The surroundings without files. -/
def surroundings : IO World := do
  let cwd ← IO.currentDir
  let values ← variableNames.mapM fun name => return (name, ← IO.getEnv name)
  return {
    files := .empty
    cwd := cwd.toString
    env := .ofList (values.filterMap fun e => e.2.map (e.1, ·)) }

/-- Loads what a run may look at. -/
def load : IO World := do
  let w ← surroundings
  let named := (w.env.get? ConfigurationFile.variableName).toList
  let own := (w.userDirectory?.map ConfigurationFile.userPath).toList
  let paths := named ++ [File.Path.join w.cwd ConfigurationFile.localName] ++ own ++ (Update.checkFile? w).toList
  let w ← paths.foldlM loadFile w
  let (c, _) := ConfigurationFile.discover w
  (Discovery.searchPaths w c).foldlM (loadTree 5) w

/-- Prints an event. -/
def print (shown : LogFilter) (out err : IO.FS.Stream) (e : Event) : IO Unit := do
  let bytes := Session.outOf e
  if !bytes.isEmpty then
    out.write ⟨bytes.toArray⟩
    out.flush
  let text := Session.errOf shown e
  if text ≠ "" then
    err.putStr text
    err.flush

end CompilerDriver.Main

/-- Runs the driver. It has no way to ask for a newer version of itself, so the time of the run does not matter. -/
def main (args : List String) : IO UInt32 := do
  let w ← CompilerDriver.Main.load
  let s := CompilerDriver.Session.run (CompilerDriver.Program.launcher w) w default
    (args.map CompilerDriver.CommandLine.Token.ofString)
  let shown := CompilerDriver.LogFilter.ofVariable (w.env.get? CompilerDriver.LogFilter.variableName)
  let out ← IO.getStdout
  let err ← IO.getStderr
  s.events.forM (CompilerDriver.Main.print shown out err)
  return s.code.toUInt32
