import CompilerDriver.Configuration
import CompilerDriver.Console
import CompilerDriver.Provider.ManifestFile
import CompilerDriver.Text.Quoted
/-!
Discovering providers: the manifests of the configuration, then those of the search paths.

Each candidate is judged by itself: it gives a manifest or a warning. A search path gives its immediate
subdirectories in ascending order of their names, whatever the order of the tree. A directory that is there can be
listed.
-/
namespace CompilerDriver.Discovery

/-- A manifest, or the warning that tells why there is none. -/
abbrev Candidate := Except String Manifest

/-- A manifest of the configuration as a candidate. -/
def ofInline (m : Manifest) : Candidate :=
  match m.defect? with
  | none => .ok m
  | some d => .error s!"Skipping provider from config: {d.message}"

/-- A file as a candidate. -/
def ofFile (w : World) (path : String) : Candidate :=
  match ManifestFile.load w path with
  | .ok m => .ok m
  | .error e => .error e.text

/-- Where the manifest of the subdirectory `name` of `dir` is. -/
def manifestPath (dir name : String) : String :=
  File.Path.join (File.Path.join dir name) ManifestFile.fileName

/-- The candidates in a directory, none if there is no such directory. -/
def inDirectory (w : World) (dir : String) : List Candidate :=
  let names := (w.files.names w.cwd dir).mergeSort fun a b => decide (a ≤ b)
  ((names.map (manifestPath dir)).filter w.isFile).map (ofFile w)

/-- All candidates in their order. -/
def candidates (w : World) (c : Configuration) (paths : List String) : List Candidate :=
  c.providers.map ofInline ++ paths.flatMap (inDirectory w)

/-- The directories to look for manifests in. -/
def searchPaths (w : World) (c : Configuration) : List String :=
  c.providerPaths ++ [File.Path.join w.cwd "providers"] ++
    (w.userDirectory?.map fun dir => File.Path.join (File.Path.join dir "pshdl") "providers").toList

/-- The manifest of a candidate that has one. -/
def manifest? : Candidate → Option Manifest
  | .ok m => some m
  | .error _ => none

/-- The warning of a candidate without a manifest. -/
def warning? : Candidate → Option Event
  | .ok _ => none
  | .error text => some (.log .warn text)

/-- The manifests found, and what goes into the log. -/
def discover (w : World) (c : Configuration) (paths : List String) : List Manifest × List Event :=
  let all := candidates w c paths
  let found := all.filterMap manifest?
  (found, all.filterMap warning? ++
    [.log .debug s!"Discovered providers: {Text.Quoted.encodeList (found.map (·.name))}"])

end CompilerDriver.Discovery
