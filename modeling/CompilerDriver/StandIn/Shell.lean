import CompilerDriver.StandIn.Expansion
import CompilerDriver.StandIn.Tool
/-!
Running scripts of the stand-in's command language.

What a script writes is kept in the order of writing, each piece with the number of the buffer it went to:
1 is the standard output, 2 the standard error output, and a pipe gets a number of its own. Scripts read
files but do not change them.
-/
namespace CompilerDriver.StandIn.Shell

open Program Script

/-- A script between two commands. -/
structure State where
  /-- The surroundings, with the variables that programs get. -/
  world : World
  /-- The other variables. -/
  locals : Keyed String := .empty
  name : String
  args : List String := []
  status : Nat := 0
  stdin : List UInt8 := []
  written : List (Nat × List UInt8) := []
  /-- The number for the next pipe. -/
  nextPipe : Nat := 3
  ended : Option Ending := none

/-- Where the two output streams lead; `none` leads nowhere. -/
structure Routes where
  out : Option Nat := some 1
  err : Option Nat := some 2

namespace State

/-- What parameters stand for. -/
def parameters (s : State) : Parameters where
  name := s.name
  args := s.args
  status := s.status
  named := .ofList (s.world.env.entries ++ s.locals.entries)

/-- What was written to a buffer. -/
def buffer (s : State) (k : Nat) : List UInt8 := (s.written.filter (·.1 = k)).flatMap (·.2)

/-- Writes to a buffer. -/
def write (s : State) (route : Option Nat) (bs : List UInt8) : State :=
  match route with
  | some k => if bs.isEmpty then s else { s with written := s.written ++ [(k, bs)] }
  | none => s

/-- Gives a variable a value. -/
def assign (s : State) (name value : String) : State :=
  if s.world.env.contains name then
    { s with world := { s.world with env := s.world.env.insert name value } }
  else { s with locals := s.locals.insert name value }

/-- Lets programs get a variable. -/
def share (s : State) (name value : String) : State :=
  { s with world := { s.world with env := s.world.env.insert name value } }

/-- Takes a variable away. -/
def forget (s : State) (name : String) : State :=
  { s with
    locals := .ofList (s.locals.entries.filter (·.1 ≠ name))
    world := { s.world with env := .ofList (s.world.env.entries.filter (·.1 ≠ name)) } }

/-- Ends a command with a message. -/
def complain (s : State) (r : Routes) (status : Nat) (message : String) : State :=
  { s.write r.err (bytes s!"{s.name}: 1: {message}\n") with status }

/-- Goes on after a part of the script that had a copy of the state for itself. -/
def after (s part : State) : State :=
  { s with
    written := part.written
    nextPipe := part.nextPipe
    status := match part.ended with
      | some (.exited code) => code
      | _ => part.status
    ended := match part.ended with
      | some (.killed n) => some (.killed n)
      | _ => none }

/-- The exit code that stands for an ending. -/
def codeOf : Ending → Nat
  | .exited code => code
  | .killed n => 128 + n

/-- Takes over what a program did. -/
def finish (s : State) (r : Routes) (f : Finished) : State :=
  { (s.write r.out f.out).write r.err f.err with status := codeOf f.ending }

end State

/-- Follows redirections from left to right. -/
def redirect (s : State) (r : Routes) : List Redirection → Except String (State × Routes)
  | [] => .ok (s, r)
  | ⟨stream, target⟩ :: rs =>
    let leading (k : Option Nat) : Routes :=
      if stream = 1 then { r with out := k } else if stream = 2 then { r with err := k } else r
    match target with
    | .copyOf source => redirect s (leading (if source = 1 then r.out else if source = 2 then r.err else none)) rs
    | .toFile w =>
      let path := s.parameters.text w
      redirect s (leading (if path = "/dev/stdout" then r.out else if path = "/dev/stderr" then r.err else none)) rs
    | .fromFile w =>
      let path := s.parameters.text w
      if path = "/dev/null" then redirect { s with stdin := [] } r rs
      else match s.world.files.read s.world.cwd path with
        | .ok content => redirect { s with stdin := content } r rs
        | .error _ => .error s!"cannot open {path}: No such file"

/-- The signals that a process survives unless it handles them. -/
def harmlessSignals : List String := ["SIGCHLD", "SIGCONT", "SIGURG", "SIGWINCH"]

/-- The number of a signal, from its number or its name with or without `SIG`. -/
def signal? (s : String) : Option Nat :=
  match s.toNat? with
  | some n => some n
  | none => ((signalNames.findIdx? fun n => n = s || n = "SIG" ++ s)).map (· + 1)

/-- The signal and the targets that the arguments of `kill` name. -/
def killTargets (args : List String) : Option (Nat × List String) :=
  match args with
  | "-s" :: name :: rest => (signal? name).map (·, rest)
  | first :: rest =>
    match first.toList with
    | '-' :: name => (signal? (String.ofList name)).map (·, rest)
    | _ => some (15, args)
  | [] => none

/-- Sends a signal. -/
def kill (s : State) (r : Routes) (args : List String) : State :=
  match killTargets args with
  | none => s.complain r 2 "kill: usage"
  | some (n, targets) =>
    if targets.contains processNumber then
      let name := if n = 0 then none else signalNames[n - 1]?
      if n = 0 || name.any harmlessSignals.contains then { s with status := 0 }
      else { s with ended := some (.killed n) }
    else s.complain r 1 "kill: No such process"

/-- Splits the text of an assignment. -/
def assignmentOf (a : String) : String × Option String :=
  let name := a.toList.takeWhile (· ≠ '=')
  (String.ofList name,
    if name.length = a.toList.length then none else some (String.ofList (a.toList.drop (name.length + 1))))

/-- The number that decimal digits write. -/
def count? (a : String) : Option Nat :=
  if a.all Char.isDigit then a.toNat? else none

/-- Ends the script with a code, by default that of its last command. What is no number is complained of, and the
script ends with 2. -/
def exit (s : State) (r : Routes) : List String → State
  | [] => { s with ended := some (.exited s.status) }
  | a :: _ =>
    match count? a with
    | some n => { s with ended := some (.exited (n % 256)) }
    | none => { s.complain r 2 s!"exit: Illegal number: {a}" with ended := some (.exited 2) }

/-- Runs a command that acts on the script itself, if the name is that of one. -/
def builtin? (s : State) (r : Routes) (name : String) (args : List String) : Option State :=
  match name with
  | ":" => some { s with status := 0 }
  | "exit" => some (exit s r args)
  | "kill" => some (kill s r args)
  | "shift" =>
    let n := (args.head?.bind count?).getD 1
    if n > s.args.length then some (s.complain r 2 "shift: can't shift that many")
    else some { s with args := s.args.drop n, status := 0 }
  | "set" =>
    match args with
    | "--" :: rest => some { s with args := rest, status := 0 }
    | _ => some { s with status := 0 }
  | "export" =>
    some { args.foldl (fun s a =>
      let (name, value) := assignmentOf a
      match value.or (s.parameters.named.get? name) with
      | some v => s.share name v
      | none => s) s with status := 0 }
  | "unset" => some { args.foldl State.forget s with status := 0 }
  | "cd" =>
    let dir := args.headD ((s.parameters.named.get? "HOME").getD "")
    match s.world.files.find s.world.cwd dir with
    | .ok (.dir _) =>
      let cwd := File.Path.join s.world.cwd dir
      some ({ s with world := { s.world with cwd }, status := 0 }.assign "PWD" cwd)
    | _ => some (s.complain r 2 s!"cd: can't cd to {dir}")
  | _ => none

/-- The programs that are part of the command language itself. -/
def ownTools : List String := ["true", "false", "echo", "printf", "test", "[", "pwd"]

/-- Runs a command by its name. -/
def call (launch : World → List UInt8 → Launcher) (s : State) (r : Routes) (name : String)
    (args : List String) : State :=
  match builtin? s r name args with
  | some s => s
  | none =>
    match (if ownTools.contains name then Tool.run? s.world s.stdin name args else none) with
    | some f => s.finish r f
    | none =>
      match launch s.world s.stdin { program := name, args } with
      | .ok f => s.finish r f
      | .error .permission => s.complain r 126 s!"{name}: Permission denied"
      | .error _ => s.complain r 127 s!"{name}: not found"

/-- Runs a command with its words. -/
def simple (launch : World → List UInt8 → Launcher) (s : State) (r : Routes)
    (assignments : List (String × Word)) (words : List Word) : State :=
  let assigned := assignments.map fun a => (a.1, s.parameters.text a.2)
  match words.flatMap s.parameters.fields with
  | [] => { assigned.foldl (fun s a => s.assign a.1 a.2) s with status := 0 }
  | name :: args =>
    let given := assigned.foldl (fun s a => s.share a.1 a.2) s
    if name = "exec" then
      match args with
      | [] => s
      | name :: args =>
        let done := call launch given r name args
        { done with ended := some (done.ended.getD (.exited done.status)) }
    else
      let done := call launch given r name args
      if assigned.isEmpty then done else { done with world := s.world }

/-- Runs a command. Nothing runs after the end of the script. -/
def run (launch : World → List UInt8 → Launcher) : Nat → Routes → Command → State → State
  | 0, _, _, s => s
  | n + 1, r, c, s =>
    if s.ended.isSome then s
    else match c with
    | .nothing => s
    | .simple assignments words rs =>
      match redirect s r rs with
      | .ok (inside, r') => { simple launch inside r' assignments words with stdin := s.stdin }
      | .error message => s.complain r 2 message
    | .sequence a b => run launch n r b (run launch n r a s)
    | .both a b =>
      let s := run launch n r a s
      if s.status = 0 then run launch n r b s else s
    | .either a b =>
      let s := run launch n r a s
      if s.status = 0 then s else run launch n r b s
    | .negation a =>
      let s := run launch n r a s
      { s with status := if s.status = 0 then 1 else 0 }
    | .pipe a b =>
      let left := run launch n { r with out := some s.nextPipe } a { s with nextPipe := s.nextPipe + 1 }
      let right := run launch n r b { s.after left with stdin := left.buffer s.nextPipe }
      s.after right
    | .group a rs =>
      match redirect s r rs with
      | .ok (inside, r') => { run launch n r' a inside with stdin := s.stdin }
      | .error message => s.complain r 2 message
    | .subshell a rs =>
      match redirect s r rs with
      | .ok (inside, r') => s.after (run launch n r' a inside)
      | .error message => s.complain r 2 message
    | .branch test yes no =>
      let s := run launch n r test s
      if s.status = 0 then run launch n r yes s else run launch n r no { s with status := 0 }
    | .each name words a rs =>
      match redirect s r rs with
      | .ok (inside, r') =>
        let values := match words with
          | some ws => ws.flatMap s.parameters.fields
          | none => s.args
        let done := values.foldl (fun s v => run launch n r' a (s.assign name v)) { inside with status := 0 }
        { done with stdin := s.stdin }
      | .error message => s.complain r 2 message
    | .loop whileTrue test a rs =>
      match redirect s r rs with
      | .ok (inside, r') =>
        let tested := run launch n r' test inside
        if (tested.status == 0) == whileTrue then
          { run launch n r' (.loop whileTrue test a []) (run launch n r' a tested) with stdin := s.stdin }
        else { tested with status := 0, stdin := s.stdin }
      | .error message => s.complain r 2 message

/-- More steps than scripts take that end by themselves. -/
def stepLimit : Nat := 100000

/-- Runs the text of a script. -/
def runText (launch : World → List UInt8 → Launcher) (script : String) (s : State) : Finished :=
  let s := s.assign "PWD" s.world.cwd
  let s := match Script.read script with
    | .ok c => run launch stepLimit {} c s
    | .error e => s.complain {} 2 e.message
  { out := s.buffer 1, err := s.buffer 2, ending := s.ended.getD (.exited s.status) }

end CompilerDriver.StandIn.Shell
