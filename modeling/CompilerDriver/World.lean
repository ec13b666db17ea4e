import CompilerDriver.File.Tree
import CompilerDriver.Keyed
/-!
What the driver finds around it when it starts: files, the working directory and the environment.

The path of the working directory is always known, and the variables are texts.
-/
namespace CompilerDriver

/-- The surroundings of a run. -/
structure World where
  files : File.Tree
  /-- The absolute path of the working directory. -/
  cwd : String
  env : Keyed String := .empty
deriving Inhabited

namespace World

/-- The directory for the user's settings: the one that the environment names, or the usual one in the
user's home. -/
def userDirectory? (w : World) : Option String :=
  match w.env.get? "XDG_CONFIG_HOME" with
  | some dir => if File.Path.isAbsolute dir then some dir else home?
  | none => home?
where
  /-- The usual directory. -/
  home? : Option String := (w.env.get? "HOME").map fun home => File.Path.join home ".config"

/-- A path leads to a file. -/
def isFile (w : World) (path : String) : Bool := w.files.isFile w.cwd path

/-- The text of a file. -/
def readText (w : World) (path : String) : Except File.Fault String := w.files.readText w.cwd path

/-- Writes a text to a file. -/
def writeText (w : World) (path text : String) : Except File.Fault World := do
  return { w with files := ← w.files.writeText w.cwd path text }

end World
end CompilerDriver
