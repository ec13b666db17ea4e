import CompilerDriver.Program.Basic
import CompilerDriver.World
/-!
Stand-ins for the small programs that scripts rely on: printing, testing and listing.

Each one is a function from its arguments and its standard input to what it writes and its exit code.
-/
namespace CompilerDriver.StandIn.Tool

open Program

/-- The value of an octal digit. -/
def octal? (c : Char) : Option Nat := if '0' ≤ c ∧ c ≤ '7' then some (c.toNat - 48) else none

/-- The byte that up to `width` octal digits make, and what follows them. -/
def octalByte (width : Nat) (cs : List Char) : UInt8 × List Char :=
  let ds := (cs.take width).takeWhile fun c => (octal? c).isSome
  ((ds.foldl (fun n c => n * 8 + (octal? c).getD 0) 0).toUInt8, cs.drop ds.length)

/-- What the letter after a backslash stands for. -/
def letter? (c : Char) : Option UInt8 :=
  if c = 'a' then some 7 else if c = 'b' then some 8 else if c = 'f' then some 12
  else if c = 'n' then some 10 else if c = 'r' then some 13 else if c = 't' then some 9
  else if c = 'v' then some 11 else if c = '\\' then some 92 else none

/-- The bytes of a text with backslashes, and whether it asks to stop the output. Numbers are marked by a zero
where `zeroed` says so. -/
def unescape (zeroed : Bool) : Nat → List Char → List UInt8 × Bool
  | 0, _ => ([], false)
  | _, [] => ([], false)
  | n + 1, '\\' :: c :: cs =>
    match letter? c with
    | some b => let r := unescape zeroed n cs; (b :: r.1, r.2)
    | none =>
      if c = 'c' && zeroed then ([], true)
      else if c = '0' && zeroed then
        let (b, cs) := octalByte 3 cs
        let r := unescape zeroed n cs
        (b :: r.1, r.2)
      else if (octal? c).isSome && !zeroed then
        let (b, cs) := octalByte 3 (c :: cs)
        let r := unescape zeroed n cs
        (b :: r.1, r.2)
      else
        let r := unescape zeroed n (c :: cs)
        (92 :: r.1, r.2)
  | n + 1, c :: cs =>
    let r := unescape zeroed n cs
    (Text.Utf8.encodeChar c ++ r.1, r.2)

/-- Prints its arguments with blanks between them. -/
def echo (args : List String) : List UInt8 :=
  let (newline, args) := match args with
    | "-n" :: rest => (false, rest)
    | _ => (true, args)
  let cs := (" ".intercalate args).toList
  let (bs, stopped) := unescape true cs.length cs
  if stopped || !newline then bs else bs ++ [10]

/-- Prints its arguments with blanks between them and takes no backslash as special. -/
def plainEcho (args : List String) : List UInt8 :=
  match args with
  | "-n" :: rest => bytes (" ".intercalate rest)
  | _ => bytes (" ".intercalate args ++ "\n")

/-- One piece of a format. -/
inductive Piece where
  | literal (bytes : List UInt8)
  | argument (conversion : Char)

/-- The pieces of a format. -/
def pieces : Nat → List Char → List Piece
  | 0, _ => []
  | _, [] => []
  | n + 1, '%' :: '%' :: cs => .literal [37] :: pieces n cs
  | n + 1, '%' :: c :: cs => .argument c :: pieces n cs
  | n + 1, cs =>
    let text := cs.takeWhile (· ≠ '%')
    let text := if text.isEmpty then cs.take 1 else text
    .literal (unescape false text.length text).1 :: pieces n (cs.drop text.length)

/-- An argument as a conversion prints it. -/
def convert (conversion : Char) (arg : String) : List UInt8 :=
  if conversion = 's' then bytes arg
  else if conversion = 'b' then (unescape true arg.length arg.toList).1
  else if conversion = 'c' then bytes (String.ofList (arg.toList.take 1))
  else bytes (toString (arg.toInt?.getD 0))

/-- Goes through the pieces of a format once. -/
def printOnce : List Piece → List String → List UInt8 × List String
  | [], args => ([], args)
  | .literal bs :: ps, args => let r := printOnce ps args; (bs ++ r.1, r.2)
  | .argument c :: ps, args =>
    let r := printOnce ps args.tail
    (convert c (args.headD "") ++ r.1, r.2)

/-- Prints its arguments in a format, which is used again as long as it takes arguments and some are left. -/
def printf (format : String) (args : List String) : List UInt8 :=
  let ps := pieces format.length format.toList
  go args.length ps args
where
  /-- Goes through the format again and again. -/
  go : Nat → List Piece → List String → List UInt8
    | 0, ps, args => (printOnce ps args).1
    | n + 1, ps, args =>
      let (out, rest) := printOnce ps args
      if rest.isEmpty || rest.length = args.length then out else out ++ go n ps rest

/-- Compares two integers. -/
def compare? (op : String) (a b : Int) : Option Bool :=
  if op = "-eq" then some (a == b) else if op = "-ne" then some (a != b)
  else if op = "-lt" then some (a < b) else if op = "-le" then some (a ≤ b)
  else if op = "-gt" then some (b < a) else if op = "-ge" then some (b ≤ a) else none

/-- A test with two operands; `none` if it is not one. -/
def binary? (a op b : String) : Option Bool :=
  if op = "=" || op = "==" then some (a == b)
  else if op = "!=" then some (a != b)
  else match a.toInt?, b.toInt? with
    | some x, some y => compare? op x y
    | _, _ => none

/-- A test with one operand; `none` if it is not one. -/
def unary? (w : World) (op a : String) : Option Bool :=
  if op = "-n" then some (a ≠ "")
  else if op = "-z" then some (a = "")
  else if op = "!" then some (a = "")
  else if op = "-f" then some (w.isFile a)
  else if op = "-e" || op = "-r" || op = "-w" then some (w.files.find w.cwd a).toBool
  else if op = "-d" then
    some (match w.files.find w.cwd a with
      | .ok (.dir _) => true
      | _ => false)
  else if op = "-x" then
    some (match w.files.find w.cwd a with
      | .ok (.file _ executable) => executable
      | .ok (.dir _) => true
      | .error _ => false)
  else if op = "-s" then
    some (match w.files.read w.cwd a with
      | .ok content => !content.isEmpty
      | .error _ => false)
  else none

/-- Decides a test; `none` if the arguments make none. -/
def test? (w : World) : List String → Option Bool
  | [] => some false
  | [a] => some (a ≠ "")
  | [op, a] => unary? w op a
  | [a, op, b] => (binary? a op b).or (if a = "!" then (unary? w op b).map (!·) else none)
  | ["!", a, op, b] => (binary? a op b).map (!·)
  | _ => none

/-- The exit code of a test. -/
def testCode (w : World) (args : List String) : Nat :=
  match test? w args with
  | some true => 0
  | some false => 1
  | none => 2

/-- The contents of files one after the other, or the standard input if none is named. -/
def cat (w : World) (stdin : List UInt8) (args : List String) : Finished :=
  if args.isEmpty then { out := stdin }
  else args.foldl (fun f a =>
    if a = "-" then { f with out := f.out ++ stdin }
    else match w.files.read w.cwd a with
      | .ok content => { f with out := f.out ++ content }
      | .error fault =>
        let reason := fault.message.takeWhile (· ≠ '(')
        { f with err := f.err ++ bytes s!"cat: {a}: {reason.trimAsciiEnd}\n", ending := .exited 1 }) {}

/-- The variables of an environment, one in a line. -/
def listing (env : Keyed String) : List UInt8 :=
  env.entries.flatMap fun e => bytes s!"{e.1}={e.2}\n"

/-- Runs the program of this name, if it is one of them. -/
def run? (w : World) (stdin : List UInt8) (name : String) (args : List String) : Option Finished :=
  match name with
  | "true" => some {}
  | "false" => some { ending := .exited 1 }
  | "sleep" => some {}
  | "echo" => some { out := echo args }
  | "printf" =>
    match args with
    | [] => some { ending := .exited 2 }
    | format :: rest => some { out := printf format rest }
  | "test" => some { ending := .exited (testCode w args) }
  | "[" =>
    if args.getLast? = some "]" then some { ending := .exited (testCode w args.dropLast) }
    else some { ending := .exited 2 }
  | "cat" => some (cat w stdin args)
  | "pwd" => some { out := bytes (w.cwd ++ "\n") }
  | "env" => some { out := listing w.env }
  | "printenv" =>
    if args.isEmpty then some { out := listing w.env }
    else
      let values := args.map w.env.get?
      some { out := values.flatMap fun v => v.elim [] fun v => bytes (v ++ "\n"),
             ending := .exited (if values.all Option.isSome then 0 else 1) }
  | _ => none

/-- Runs the program of this name as one of its own, outside a script. -/
def program? (w : World) (stdin : List UInt8) (name : String) (args : List String) : Option Finished :=
  if name = "echo" then some { out := plainEcho args } else run? w stdin name args

/-- The names of the programs. -/
def names : List String :=
  ["true", "false", "sleep", "echo", "printf", "test", "[", "cat", "pwd", "env", "printenv"]

end CompilerDriver.StandIn.Tool
