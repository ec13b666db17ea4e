/-!
Paths as texts: joining, the parts of a path, and the path of the directory that a path lies in.

Nothing here looks at files. Repeated slashes and the part `.` behind the first part make no difference to where
a path leads, but they stay in its text.
-/
namespace CompilerDriver.File.Path

/-- A path that does not depend on the working directory. -/
def isAbsolute (p : String) : Bool := p.toList.head? == some '/'

/-- Cuts a text at every separator. -/
def cutAt (separator : Char) : List Char → List (List Char)
  | [] => [[]]
  | c :: cs =>
    if c = separator then [] :: cutAt separator cs
    else match cutAt separator cs with
      | [] => [[c]]
      | s :: ss => (c :: s) :: ss

/-- Cuts a path at every slash. -/
def segments (cs : List Char) : List (List Char) := cutAt '/' cs

/-- Puts slashes between segments. -/
def ofSegments (ss : List (List Char)) : String :=
  String.ofList (List.intercalate ['/'] ss)

/-- `p` as seen from `base`. A slash is put between them unless it is there already; an absolute path
stays what it is. -/
def join (base p : String) : String :=
  if isAbsolute p then p
  else if base = "" ∨ base.toList.getLast? = some '/' then base ++ p
  else base ++ "/" ++ p

/-- A segment that leads nowhere. -/
def isIdle (s : List Char) : Bool := s = [] || s = ['.']

/-- The number of parts: the root, a `.` at the beginning, and every segment that leads somewhere. -/
def partCount (p : String) : Nat :=
  match segments p.toList with
  | [] => 0
  | s :: ss =>
    let rest := (ss.filter fun t => !isIdle t).length
    if s = [] then (if isAbsolute p then rest + 1 else rest) else rest + 1

/-- Without the segments at the end that lead nowhere, but always with the first. -/
def dropIdle : List (List Char) → List (List Char)
  | [] => []
  | s :: ss => s :: (ss.reverse.dropWhile isIdle).reverse

/-- The path without its last part, for a path that has one besides the root. -/
def parent? (p : String) : Option String :=
  match dropIdle (segments p.toList) with
  | [] => none
  | [[]] => none
  | [_] => some ""
  | ss =>
    match dropIdle ss.dropLast with
    | [[]] => some "/"
    | rest => some (ofSegments rest)

end CompilerDriver.File.Path
