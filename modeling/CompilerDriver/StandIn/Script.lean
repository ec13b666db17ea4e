/-!
Scripts of the stand-in's command language: their parts, and how they are read.

A script is cut into lexemes, and these are put together to commands. Both work through the text from left to
right; the number of characters or lexemes left bounds them.
-/
namespace CompilerDriver.StandIn.Script

/-- A part of a word. What is quoted is not cut at blanks. -/
inductive Part where
  | text (s : String) (quoted : Bool)
  /-- The value of a parameter. -/
  | value (name : String) (quoted : Bool)
  /-- The value of a parameter, or other words if it is not set, or if it is empty and that counts as not set. -/
  | valueOr (name : String) (emptyCounts : Bool) (other : List Part) (quoted : Bool)
deriving Inhabited

/-- A word before its parameters have their values. -/
abbrev Word := List Part

/-- Where a redirection leads. -/
inductive Target where
  | copyOf (stream : Nat)
  | toFile (path : Word)
  | fromFile (path : Word)

/-- A redirection of a numbered stream. -/
structure Redirection where
  stream : Nat
  target : Target

/-- A command. -/
inductive Command where
  | nothing
  | simple (assignments : List (String × Word)) (words : List Word) (redirections : List Redirection)
  | sequence (first second : Command)
  | both (first second : Command)
  | either (first second : Command)
  | negation (body : Command)
  | pipe (first second : Command)
  | group (body : Command) (redirections : List Redirection)
  | subshell (body : Command) (redirections : List Redirection)
  | branch (test yes no : Command)
  | each (name : String) (words : Option (List Word)) (body : Command) (redirections : List Redirection)
  | loop (whileTrue : Bool) (test body : Command) (redirections : List Redirection)
deriving Inhabited

/-- The smallest parts of a script that commands are made of. -/
inductive Lexeme where
  | word (w : Word)
  | operator (s : String)
  | redirect (stream : Option Nat) (operator : String)
deriving Inhabited

/-- Why a script cannot be read. -/
inductive Error where
  | unterminated
  | unexpected (what : String)
deriving DecidableEq

/-- The error in words. -/
def Error.message : Error → String
  | unterminated => "Syntax error: Unterminated quoted string"
  | unexpected what => s!"Syntax error: {what} unexpected"

/-! ### Lexemes -/

/-- A character of a name. -/
def isNameChar (c : Char) : Bool := c.isAlphanum || c = '_'

/-- A parameter with a name of one special character. -/
def isSpecial (c : Char) : Bool := c = '@' || c = '*' || c = '#' || c = '?' || c = '$' || c = '!' || c = '-'

/-- A character that ends a word outside quotes. -/
def endsWord (c : Char) : Bool :=
  c = ' ' || c = '\t' || c = '\n' || c = ';' || c = '&' || c = '|' || c = '<' || c = '>' || c = '(' || c = ')'

/-- What ends the text that parts are read from. -/
inductive Stop where
  | word
  | quote
  | brace
deriving DecidableEq

/-- The name of a parameter at the front of a text. -/
def parameterName : List Char → List Char × List Char
  | [] => ([], [])
  | c :: cs =>
    if isSpecial c then ([c], cs)
    else if c.isDigit then ([c], cs)
    else ((c :: cs).takeWhile isNameChar, (c :: cs).dropWhile isNameChar)

/-- The parts are those of `"$@"`, which is no word at all if there are no parameters. -/
def isAllParameters : List Part → Bool
  | [.value "@" true] => true
  | _ => false

/-- Reads parts up to what ends them, which is taken only if it is a quote or a brace. -/
def parts : Nat → Stop → Bool → List Char → Except Error (List Part × List Char)
  | 0, _, _, _ => .error .unterminated
  | _ + 1, stop, _, [] => if stop = .word then .ok ([], []) else .error .unterminated
  | n + 1, stop, quoted, c :: cs => do
    let one (p : Part) (rest : List Char) : Except Error (List Part × List Char) := do
      let (ps, rest) ← parts n stop quoted rest
      return (p :: ps, rest)
    if stop = .word && endsWord c then .ok ([], c :: cs)
    else if stop = .quote && c = '"' then .ok ([], cs)
    else if stop = .brace && c = '\x7d' then .ok ([], cs)
    else if c = '"' then do
      let (inner, rest) ← parts n .quote true cs
      let (ps, rest) ← parts n stop quoted rest
      return ((if isAllParameters inner then inner else .text "" true :: inner) ++ ps, rest)
    else if c = '\'' && !quoted then
      let inside := cs.takeWhile (· ≠ '\'')
      if inside.length = cs.length then .error .unterminated
      else one (.text (String.ofList inside) true) (cs.drop (inside.length + 1))
    else if c = '\\' then
      match cs with
      | [] => one (.text "\\" true) []
      | d :: rest =>
        if d = '\n' then parts n stop quoted rest
        else if quoted && !(d = '$' || d = '"' || d = '\\' || d.toNat = 96) then
          one (.text (String.ofList ['\\', d]) true) rest
        else one (.text (String.singleton d) true) rest
    else if c = '$' then
      match cs with
      | '\x7b' :: rest =>
        let (name, rest) := parameterName rest
        match rest with
        | '\x7d' :: rest => one (.value (String.ofList name) quoted) rest
        | ':' :: '-' :: rest => do
          let (other, rest) ← parts n .brace quoted rest
          one (.valueOr (String.ofList name) true other quoted) rest
        | '-' :: rest => do
          let (other, rest) ← parts n .brace quoted rest
          one (.valueOr (String.ofList name) false other quoted) rest
        | _ => .error (.unexpected "bad substitution")
      | _ =>
        let (name, rest) := parameterName cs
        if name.isEmpty then one (.text "$" quoted) cs
        else one (.value (String.ofList name) quoted) rest
    else one (.text (String.singleton c) quoted) cs

/-- Operators, longer ones first. -/
def operators : List String := ["&&", "||", ";;", ";", "&", "|", "(", ")", "\n"]

/-- Operators that redirect a stream, longer ones first. -/
def redirectors : List String := [">>", ">&", "<&", ">", "<"]

/-- The operator that a text begins with. -/
def startingWith (ops : List String) (cs : List Char) : Option (String × List Char) :=
  (ops.find? fun o => o.toList.isPrefixOf cs).map fun o => (o, cs.drop o.length)

/-- Cuts a script into lexemes. -/
def lexemes : Nat → List Char → Except Error (List Lexeme)
  | 0, _ => .ok []
  | _ + 1, [] => .ok []
  | n + 1, c :: cs => do
    if c = ' ' || c = '\t' then lexemes n cs
    else if c = '\\' && cs.head? = some '\n' then lexemes n cs.tail
    else if c = '#' then lexemes n (cs.dropWhile (· ≠ '\n'))
    else
      let digits := (c :: cs).takeWhile Char.isDigit
      let behind := (c :: cs).drop digits.length
      match startingWith redirectors behind with
      | some (op, rest) =>
        let stream := if digits.isEmpty then none else (String.ofList digits).toNat?
        return .redirect stream op :: (← lexemes n rest)
      | none =>
        match startingWith operators (c :: cs) with
        | some (op, rest) => return .operator op :: (← lexemes n rest)
        | none => do
          let (ps, rest) ← parts (2 * cs.length + 4) .word false (c :: cs)
          return .word ps :: (← lexemes n rest)

/-! ### Commands -/

/-- The text of a word without quotes and parameters, which may be a keyword. -/
def bareText? : Word → Option String
  | [] => some ""
  | .text s false :: ps => (bareText? ps).map (s ++ ·)
  | _ => none

/-- The keyword at the front. -/
def keyword? : List Lexeme → Option String
  | .word w :: _ => bareText? w
  | _ => none

/-- Takes a keyword. -/
def expect (k : String) (ls : List Lexeme) : Except Error (List Lexeme) :=
  if keyword? ls = some k then .ok ls.tail else .error (.unexpected "word")

/-- An operator between commands in a list. -/
def isSeparator : Lexeme → Bool
  | .operator s => s = ";" || s = "\n" || s = "&"
  | _ => false

/-- Drops line feeds. -/
def dropNewlines (ls : List Lexeme) : List Lexeme :=
  ls.dropWhile fun
    | .operator s => s = "\n"
    | _ => false

/-- Keywords that end a list of commands. -/
def closers : List String := ["done", "do", "then", "else", "elif", "fi", "\x7d"]

/-- A list of commands ends here. -/
def atEnd : List Lexeme → Bool
  | [] => true
  | .operator s :: _ => s = ")"
  | ls => (keyword? ls).any closers.contains

/-- The name and the value of an assignment. -/
def assignment? (w : Word) : Option (String × Word) :=
  go [] w
where
  /-- Looks for the equals sign behind the characters of a name. -/
  go (name : List Char) : Word → Option (String × Word)
    | .text s false :: ps =>
      match s.toList with
      | [c] =>
        if c = '=' then
          if name.isEmpty || name.head?.any Char.isDigit then none else some (String.ofList name, ps)
        else if isNameChar c then go (name ++ [c]) ps
        else none
      | _ => none
    | _ => none

/-- Takes the redirections at the front. -/
def redirections : Nat → List Lexeme → Except Error (List Redirection × List Lexeme)
  | n + 1, .redirect stream op :: .word w :: rest => do
    let (rs, rest) ← redirections n rest
    let r ← redirection stream op w
    return (r :: rs, rest)
  | _ + 1, .redirect _ _ :: _ => .error (.unexpected "newline")
  | _, ls => .ok ([], ls)
where
  /-- One redirection. -/
  redirection (stream : Option Nat) (op : String) (w : Word) : Except Error Redirection :=
    if op = ">" || op = ">>" then .ok ⟨stream.getD 1, .toFile w⟩
    else if op = "<" then .ok ⟨stream.getD 0, .fromFile w⟩
    else match (bareText? w).bind String.toNat? with
      | some source => .ok ⟨stream.getD (if op = "<&" then 0 else 1), .copyOf source⟩
      | none => .error (.unexpected "bad stream number")

/-- Takes the words, assignments and redirections of a simple command. -/
def simpleParts : Nat → List Lexeme →
    Except Error ((List (String × Word) × List Word × List Redirection) × List Lexeme)
  | n + 1, .redirect s op :: rest => do
    let (rs, rest) ← redirections 1 (.redirect s op :: rest)
    let ((as, ws, more), rest) ← simpleParts n rest
    return ((as, ws, rs ++ more), rest)
  | n + 1, .word w :: rest => do
    let ((as, ws, rs), rest) ← simpleParts n rest
    return ((as, w :: ws, rs), rest)
  | _, ls => .ok (([], [], []), ls)

/-- Takes the words up to the end of a line. -/
def wordsHere : List Lexeme → List Word × List Lexeme
  | .word w :: rest => let (ws, rest) := wordsHere rest; (w :: ws, rest)
  | ls => ([], ls)

/-- Splits the words at the front that are assignments from the others. -/
def splitAssignments : List Word → List (String × Word) × List Word
  | [] => ([], [])
  | w :: ws =>
    match assignment? w with
    | some a => let (as, rest) := splitAssignments ws; (a :: as, rest)
    | none => ([], w :: ws)

/-- What is being read. -/
inductive Level where
  /-- Commands up to the end of their list. -/
  | list
  /-- Commands joined by `&&` and `||`. -/
  | chain
  /-- The rest of a chain whose first commands have been read. -/
  | chainAfter (first : Command)
  /-- Commands joined by `|`. -/
  | pipeline
  /-- One command. -/
  | single
  /-- The rest of a conditional after its first word. -/
  | conditional
  /-- The rest of a loop after its first word. -/
  | loop (whileTrue : Bool)

/-- Reads commands. Each step goes one level down or takes a lexeme. -/
def commands : Nat → Level → List Lexeme → Except Error (Command × List Lexeme)
  | 0, _, _ => .error (.unexpected "end of file")
  | n + 1, .list, ls =>
    let ls := ls.dropWhile isSeparator
    if atEnd ls then .ok (.nothing, ls)
    else do
      let (first, rest) ← commands n .chain ls
      match rest with
      | l :: _ =>
        if isSeparator l then do
          let (second, rest) ← commands n .list rest
          return (.sequence first second, rest)
        else if atEnd rest then return (first, rest)
        else .error (.unexpected "word")
      | [] => return (first, [])
  | n + 1, .chain, ls => do
    let (first, rest) ← commands n .pipeline ls
    commands n (.chainAfter first) rest
  | n + 1, .chainAfter first, ls =>
    match ls with
    | .operator "&&" :: rest => do
      let (second, rest) ← commands n .pipeline (dropNewlines rest)
      commands n (.chainAfter (.both first second)) rest
    | .operator "||" :: rest => do
      let (second, rest) ← commands n .pipeline (dropNewlines rest)
      commands n (.chainAfter (.either first second)) rest
    | _ => .ok (first, ls)
  | n + 1, .pipeline, ls => do
    if keyword? ls = some "!" then
      let (body, rest) ← commands n .pipeline ls.tail
      return (.negation body, rest)
    else
      let (first, rest) ← commands n .single ls
      match rest with
      | .operator "|" :: rest => do
        let (second, rest) ← commands n .pipeline (dropNewlines rest)
        return (.pipe first second, rest)
      | _ => return (first, rest)
  | n + 1, .conditional, ls => do
    let (test, rest) ← commands n .list ls
    let (yes, rest) ← commands n .list (← expect "then" rest)
    match keyword? rest with
    | some "elif" => do
      let (no, rest) ← commands n .conditional rest.tail
      return (.branch test yes no, rest)
    | some "else" => do
      let (no, rest) ← commands n .list rest.tail
      return (.branch test yes no, ← expect "fi" rest)
    | _ => return (.branch test yes .nothing, ← expect "fi" rest)
  | n + 1, .loop whileTrue, ls => do
    let (test, rest) ← commands n .list ls
    let (body, rest) ← commands n .list (← expect "do" rest)
    let rest ← expect "done" rest
    let (rs, rest) ← redirections rest.length rest
    return (.loop whileTrue test body rs, rest)
  | n + 1, .single, ls => do
    match ls with
    | .operator "(" :: rest => do
      let (body, rest) ← commands n .list rest
      match rest with
      | .operator ")" :: rest => do
        let (rs, rest) ← redirections rest.length rest
        return (.subshell body rs, rest)
      | _ => .error (.unexpected "end of file")
    | .operator o :: _ => .error (.unexpected s!"\"{o}\"")
    | _ =>
      match keyword? ls with
      | some "\x7b" => do
        let (body, rest) ← commands n .list ls.tail
        let rest ← expect "\x7d" rest
        let (rs, rest) ← redirections rest.length rest
        return (.group body rs, rest)
      | some "if" => do
        let (body, rest) ← commands n .conditional ls.tail
        let (rs, rest) ← redirections rest.length rest
        return (.group body rs, rest)
      | some "for" => do
        match (keyword? ls.tail, ls.tail.tail) with
        | (some name, rest) =>
          let (words, rest) := if keyword? rest = some "in" then
              let (ws, rest) := wordsHere rest.tail
              (some ws, rest)
            else (none, rest)
          let rest := rest.dropWhile isSeparator
          let (body, rest) ← commands n .list (← expect "do" rest)
          let rest ← expect "done" rest
          let (rs, rest) ← redirections rest.length rest
          return (.each name words body rs, rest)
        | _ => .error (.unexpected "word")
      | some "while" => commands n (.loop true) ls.tail
      | some "until" => commands n (.loop false) ls.tail
      | _ => do
        let ((_, words, rs), rest) ← simpleParts (ls.length + 1) ls
        let (assignments, words) := splitAssignments words
        return (.simple assignments words rs, rest)

/-- Reads a script. -/
def read (script : String) : Except Error Command := do
  let cs := script.toList
  let ls ← lexemes (cs.length + 1) cs
  let (c, rest) ← commands (6 * ls.length + 12) .list ls
  match rest with
  | [] => return c
  | _ => .error (.unexpected "word")

end CompilerDriver.StandIn.Script
