import CompilerDriver.Json.Failure
/-!
Readers of JSON texts. A reader takes its part off the front of a text or fails there.

This module has what all readers share: blanks, fixed words and strings.
-/
namespace CompilerDriver.Json

/-- Takes a value off the front of a text. -/
abbrev Reader (α : Type) := StateT (List Char) (Except Failure) α

namespace Reader

/-- Fails with what has been read so far. -/
def failAt {α : Type} (cause : Cause) : Reader α := fun s => .error ⟨cause, s, 0⟩

/-- Fails at the next byte, or at the end if there is none. -/
def failNext {α : Type} (cause : Cause) : Reader α := fun s => .error ⟨cause, s, 1⟩

/-- Blanks between the parts of a text. -/
def isBlank (c : Char) : Bool := c = ' ' || c = '\n' || c = '\t' || c = '\r'

/-- Drops blanks. -/
def skipBlanks : Reader Unit := modify (·.dropWhile isBlank)

/-- The next character, which stays. -/
def peek : Reader (Option Char) := return (← get).head?

/-- Drops the next character. -/
def drop : Reader Unit := modify List.tail

/-- Drops blanks and shows the next character. -/
def peekPart : Reader (Option Char) := do
  skipBlanks
  peek

/-- Takes the characters of `word`. -/
def word : List Char → Reader Unit
  | [] => pure ()
  | c :: cs => do
    match ← peek with
    | none => failAt .endInValue
    | some d =>
      if d = c then
        drop
        word cs
      else failNext .expectedIdent

/-- The value of a hexadecimal digit. -/
def hexValue? (c : Char) : Option Nat :=
  let n := c.toNat
  if 48 ≤ n ∧ n ≤ 57 then some (n - 48)
  else if 65 ≤ n ∧ n ≤ 70 then some (n - 55)
  else if 97 ≤ n ∧ n ≤ 102 then some (n - 87)
  else none

/-- The number that the first four characters make, if all are hexadecimal digits. -/
def fourHex? : List Char → Option Nat
  | a :: b :: c :: d :: _ => do
    let a ← hexValue? a
    let b ← hexValue? b
    let c ← hexValue? c
    let d ← hexValue? d
    return ((a * 16 + b) * 16 + c) * 16 + d
  | _ => none

/-- Takes the four digits after `\u`. -/
def fourHex : Reader Nat := do
  let s ← get
  if Text.Utf8.size s < 4 then
    set ([] : List Char)
    failAt .endInString
  else match fourHex? s with
    | some n => do
      set (s.drop 4)
      return n
    | none => fun s => .error ⟨.invalidEscape, s, 4⟩

/-- The character that a letter after a backslash stands for. -/
def letterEscape? (c : Char) : Option Char :=
  if c = '"' || c = '\\' || c = '/' then some c
  else if c = 'b' then some '\x08'
  else if c = 'f' then some '\x0c'
  else if c = 'n' then some '\n'
  else if c = 'r' then some '\r'
  else if c = 't' then some '\t'
  else none

/-- Takes a character given by its number. One beyond the first plane is given by two numbers, the first from
0xD800 to 0xDBFF and the second from 0xDC00 to 0xDFFF; neither may stand alone. -/
def numberedChar : Reader Char := do
  let n ← fourHex
  if 0xDC00 ≤ n ∧ n ≤ 0xDFFF then failAt .loneSurrogate
  else if n < 0xD800 ∨ 0xDBFF < n then return Char.ofNat n
  else
    for c in ['\\', 'u'] do
      match ← peek with
      | none => failAt .endInString
      | some d => if d = c then drop else failNext .unfinishedPair
    let m ← fourHex
    if m < 0xDC00 ∨ 0xDFFF < m then failAt .loneSurrogate
    else return Char.ofNat (0x10000 + (n - 0xD800) * 0x400 + (m - 0xDC00))

/-- Takes what follows a backslash. -/
def escaped : Reader Char := do
  match ← peek with
  | none => failAt .endInString
  | some 'u' => do
    drop
    numberedChar
  | some c =>
    match letterEscape? c with
    | some d => do
      drop
      return d
    | none => failNext .invalidEscape

/-- Takes the rest of a string up to its closing quote, in at most so many steps. -/
def stringBody : Nat → Reader (List Char)
  | 0 => failAt .endInString
  | steps + 1 => do
    match ← peek with
    | none => failAt .endInString
    | some '"' => do
      drop
      return []
    | some '\\' => do
      drop
      let c ← escaped
      return c :: (← stringBody steps)
    | some c =>
      if c.toNat < 0x20 then failNext .controlCharacter
      else do
        drop
        return c :: (← stringBody steps)

/-- Takes the rest of a string. A text has no more characters than steps are allowed. -/
def stringRest : Reader String := do
  let s ← get
  return String.ofList (← stringBody (s.length + 1))

/-- Takes the rest of a string of which only the syntax matters, in at most so many steps. -/
def skipStringBody : Nat → Reader Unit
  | 0 => failAt .endInString
  | steps + 1 => do
    match ← peek with
    | none => failAt .endInString
    | some '"' => drop
    | some '\\' => do
      drop
      match ← peek with
      | none => failAt .endInString
      | some 'u' => do
        drop
        let _ ← fourHex
        skipStringBody steps
      | some c =>
        if (letterEscape? c).isSome then do
          drop
          skipStringBody steps
        else failNext .invalidEscape
    | some c =>
      if c.toNat < 0x20 then failAt .controlCharacter
      else do
        drop
        skipStringBody steps

/-- Takes the rest of a string of which only the syntax matters. -/
def skipString : Reader Unit := do
  let s ← get
  skipStringBody (s.length + 1)

end Reader
end CompilerDriver.Json
