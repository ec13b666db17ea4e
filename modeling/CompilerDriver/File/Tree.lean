import CompilerDriver.File.Path
import CompilerDriver.Text.Utf8
/-!
A tree of files and directories, and the operations that the driver needs on it.

A place in the tree is the list of names that lead to it from the root. `resolve` finds the place of a path; a
path may lead through `.` and `..`, but each directory that it goes through must be there.

Names are texts. Of the rights to a file there is only the one to run it: whatever is there can be read and written.
There are no links and no devices.
-/
namespace CompilerDriver.File

/-- Why an operation on files or programs is refused. -/
inductive Fault where
  | noEntry
  | execFormat
  | permission
  | notDirectory
  | isDirectory
  /-- A path holds a NUL character. -/
  | nulInPath
  /-- An argument or a variable for a program holds a NUL character. -/
  | nulInArgument
  /-- A file does not hold UTF-8 text. -/
  | notText
deriving DecidableEq

/-- The fault in words. -/
def Fault.message : Fault → String
  | noEntry => "No such file or directory (os error 2)"
  | execFormat => "Exec format error (os error 8)"
  | permission => "Permission denied (os error 13)"
  | notDirectory => "Not a directory (os error 20)"
  | isDirectory => "Is a directory (os error 21)"
  | nulInPath => "file name contained an unexpected NUL byte"
  | nulInArgument => "nul byte found in provided data"
  | notText => "stream did not contain valid UTF-8"

/-- A file or a directory. -/
inductive Tree where
  | file (content : List UInt8) (executable : Bool)
  | dir (entries : List (String × Tree))
deriving Inhabited

namespace Tree

/-- A directory without entries. -/
def empty : Tree := dir []

/-- What has the name `n` among `entries`. -/
def child? (n : String) : List (String × Tree) → Option Tree
  | [] => none
  | (k, t) :: rest => if k = n then some t else child? n rest

/-- What is at a place. -/
def at? : Tree → List String → Option Tree
  | t, [] => some t
  | file _ _, _ :: _ => none
  | dir entries, n :: ns => (child? n entries).bind (at? · ns)

/-- `entries` with `t` under the name `n`, in the place of what had that name. -/
def setChild (n : String) (t : Tree) : List (String × Tree) → List (String × Tree)
  | [] => [(n, t)]
  | (k, old) :: rest => if k = n then (n, t) :: rest else (k, old) :: setChild n t rest

/-- Puts `new` at a place. Directories that lead there are made where there are none. -/
def put (new : Tree) : Tree → List String → Tree
  | _, [] => new
  | t, n :: ns =>
    let entries := match t with
      | dir entries => entries
      | file _ _ => []
    dir (setChild n (put new ((child? n entries).getD empty) ns) entries)

/-- Goes from the place `at` through the segments of a path. -/
def walk (root : Tree) (place : List String) : List (List Char) → Except Fault (List String)
  | [] => .ok place
  | s :: rest =>
    match root.at? place with
    | none => .error .noEntry
    | some (file _ _) => .error .notDirectory
    | some (dir _) =>
      if Path.isIdle s then walk root place rest
      else if s = ['.', '.'] then walk root place.dropLast rest
      else walk root (place ++ [String.ofList s]) rest

/-- The place that a path leads to when `cwd` is the working directory. Its last part need not be there. -/
def resolve (root : Tree) (cwd path : String) : Except Fault (List String) :=
  if path.toList.contains '\x00' then .error .nulInPath
  else if path = "" then .error .noEntry
  else
    let start := if Path.isAbsolute path then [] else Path.segments cwd.toList
    walk root [] (start ++ Path.segments path.toList)

/-- What a path leads to. -/
def find (root : Tree) (cwd path : String) : Except Fault Tree := do
  let place ← root.resolve cwd path
  match root.at? place with
  | some t => return t
  | none => .error .noEntry

/-- A path leads to a file. -/
def isFile (root : Tree) (cwd path : String) : Bool :=
  match root.find cwd path with
  | .ok (file _ _) => true
  | _ => false

/-- The bytes of a file. -/
def read (root : Tree) (cwd path : String) : Except Fault (List UInt8) := do
  match ← root.find cwd path with
  | file content _ => return content
  | dir _ => .error .isDirectory

/-- The text of a file. -/
def readText (root : Tree) (cwd path : String) : Except Fault String := do
  match Text.Utf8.decode? (← root.read cwd path) with
  | some text => return text
  | none => .error .notText

/-- The names in a directory, in the order of the tree; none if there is no such directory. -/
def names (root : Tree) (cwd path : String) : List String :=
  match root.find cwd path with
  | .ok (dir entries) => entries.map (·.1)
  | _ => []

/-- A path without the slashes at its end. -/
def withoutSlashes (path : String) : String :=
  String.ofList (path.toList.reverse.dropWhile (· = '/')).reverse

/-- Writes a text to a file. The directory of the file must be there; a file that was there keeps its
permission. A path with a slash at its end is that of a directory, whether it is there or not. -/
def writeText (root : Tree) (cwd path text : String) : Except Fault Tree := do
  let bare := withoutSlashes path
  let place ← root.resolve cwd (if bare = "" then path else bare)
  let content := Text.Utf8.encode text.toList
  match root.at? place, root.at? place.dropLast with
  | some (dir _), _ => .error .isDirectory
  | some (file _ executable), _ =>
    if bare = path then return put (file content executable) root place else .error .isDirectory
  | none, some (dir _) =>
    if bare = path then return put (file content false) root place else .error .isDirectory
  | none, some (file _ _) => .error .notDirectory
  | none, none => .error .noEntry

/-- Goes through the segments of a path and makes the directories that are missing. -/
def makeDirs (root : Tree) (place : List String) : List (List Char) → Except Fault Tree
  | [] => .ok root
  | s :: rest =>
    if Path.isIdle s then makeDirs root place rest
    else if s = ['.', '.'] then makeDirs root place.dropLast rest
    else
      let next := place ++ [String.ofList s]
      match root.at? next with
      | some (dir _) => makeDirs root next rest
      | some (file _ _) => .error .notDirectory
      | none => makeDirs (put empty root next) next rest

/-- Makes a directory and those that lead to it, as far as they are missing. The empty path asks for none. -/
def createDirs (root : Tree) (cwd path : String) : Except Fault Tree :=
  if path = "" then .ok root
  else if path.toList.contains '\x00' then .error .nulInPath
  else if Path.isAbsolute path then makeDirs root [] (Path.segments path.toList)
  else makeDirs root [] (Path.segments cwd.toList ++ Path.segments path.toList)

end Tree
end CompilerDriver.File
