import CompilerDriver.StandIn.Shell
/-!
Starting stand-ins for programs: how a program is found, and what runs it.

A program with a slash in its name is taken as a path; another one is looked for in the directories of the
search path. The usual programs are in the usual directories; a file runs if it is executable and its first line
names the program that reads it.
-/
namespace CompilerDriver.StandIn

open Program

/-- The directories to look for programs in, if the environment names none. -/
def usualSearchPath : String := "/bin:/usr/bin"

/-- The name of the command language's own program. -/
def shellName : String := "sh"

/-- The usual program that an absolute path leads to. -/
def usualProgram? (path : String) : Option String :=
  let known (name : List Char) : Option String :=
    let name := String.ofList name
    if name = shellName || Tool.names.contains name then some name else none
  match (File.Path.segments path.toList).filter fun s => !File.Path.isIdle s with
  | [['b', 'i', 'n'], name] => known name
  | [['u', 's', 'r'], ['b', 'i', 'n'], name] => known name
  | _ => none

/-- The program and its argument that the first line of a file names. -/
def interpreter? (content : List UInt8) : Option (String × List String) :=
  match (textOf (content.takeWhile (· ≠ 10))).toList with
  | '#' :: '!' :: line =>
    let blank (c : Char) : Bool := c = ' ' || c = '\t'
    let line := line.dropWhile blank
    let program := line.takeWhile fun c => !blank c
    let arg := ((line.drop program.length).dropWhile blank).reverse.dropWhile blank
    if program.isEmpty then none
    else some (String.ofList program, if arg.isEmpty then [] else [String.ofList arg.reverse])
  | _ => none

/-- Runs the command language's own program. -/
def runShell (launch : World → List UInt8 → Launcher) (w : World) (stdin : List UInt8) (args : List String) :
    Finished :=
  match args with
  | [] => Shell.runText launch (textOf stdin) { world := w, name := shellName }
  | first :: rest =>
    match first.toList with
    | '-' :: flags =>
      if flags.contains 'c' then
        match rest with
        | [] =>
          { err := bytes s!"{shellName}: 0: -c requires an argument\n", ending := .exited 2 }
        | script :: rest =>
          Shell.runText launch script
            { world := w, name := rest.headD shellName, args := rest.drop 1, stdin }
      else Shell.runText launch (textOf stdin) { world := w, name := shellName, args := rest }
    | _ =>
      match w.files.read w.cwd first with
      | .ok content => Shell.runText launch (textOf content) { world := w, name := first, args := rest, stdin }
      | .error _ =>
        { err := bytes s!"{shellName}: 0: cannot open {first}: No such file\n", ending := .exited 2 }

/-- Runs what a path leads to. -/
def runPath (launch : World → List UInt8 → Launcher) (w : World) (stdin : List UInt8) (path : String)
    (args : List String) : Except File.Fault Finished :=
  match usualProgram? (File.Path.join w.cwd path) with
  | some name =>
    if name = shellName then .ok (runShell launch w stdin args)
    else
      let plain := args.dropWhile fun a => a.toList.contains '='
      match if name = "env" then plain else [] with
      | program :: rest =>
        let given := (args.take (args.length - plain.length)).map Shell.assignmentOf
        launch w stdin { program, args := rest, env := .ofList (given.map fun a => (a.1, a.2.getD "")) }
      | [] =>
        match Tool.program? w stdin name args with
        | some f => .ok f
        | none => .error .noEntry
  | none => do
    match ← w.files.find w.cwd path with
    | .dir _ => .error .permission
    | .file content executable =>
      if !executable then .error .permission
      else match interpreter? content with
        | none => .error .execFormat
        | some (program, more) =>
          let program := if program.toList.contains '/' then program else File.Path.join "." program
          launch w stdin { program, args := more ++ path :: args }

/-- Tries the directories in turn. One without the program is passed over; that the program may not be run in
one is told if no other has it. -/
def search (run : String → Except File.Fault Finished) (program : String) (denied : Bool) :
    List (List Char) → Except File.Fault Finished
  | [] => .error (if denied then .permission else .noEntry)
  | d :: ds =>
    match run (File.Path.join (if d.isEmpty then "." else String.ofList d) program) with
    | .error .permission => search run program true ds
    | .error .noEntry => search run program denied ds
    | .error .notDirectory => search run program denied ds
    | result => result

/-- Starts a program. The number bounds how far programs start each other. -/
def start : Nat → World → List UInt8 → Launcher
  | 0, _, _, _ => .error .noEntry
  | n + 1, w, stdin, s =>
    let env := Keyed.ofList (w.env.entries ++ s.env.entries)
    let w := { w with env }
    let texts := s.program :: s.args ++ s.env.entries.flatMap fun e => [e.1, e.2]
    if texts.any fun t => t.toList.contains '\x00' then .error .nulInArgument
    else if s.program = "" then .error .noEntry
    else if s.program.toList.contains '/' then runPath (start n) w stdin s.program s.args
    else
      let dirs := File.Path.cutAt ':' ((env.get? "PATH").getD usualSearchPath).toList
      search (fun path => runPath (start n) w stdin path s.args) s.program false dirs

end CompilerDriver.StandIn
