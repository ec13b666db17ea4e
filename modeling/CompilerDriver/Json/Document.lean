/-!
JSON documents as the driver writes them, on one line or indented.
-/
namespace CompilerDriver.Json

/-- A document. The fields of a record keep their order. -/
inductive Document where
  | text (s : String)
  | number (n : Nat)
  | boolean (b : Bool)
  | list (items : List Document)
  | record (fields : List (String × Document))
deriving Inhabited

namespace Document

/-- A hexadecimal digit. -/
def hexDigit (n : Nat) : Char :=
  if n < 10 then Char.ofNat (48 + n) else Char.ofNat (87 + n)

/-- One character inside the quotes: quotes, backslashes and control characters are escaped. -/
def escape (c : Char) : List Char :=
  if c = '"' then ['\\', '"']
  else if c = '\\' then ['\\', '\\']
  else if c = '\n' then ['\\', 'n']
  else if c = '\r' then ['\\', 'r']
  else if c = '\t' then ['\\', 't']
  else if c = '\x08' then ['\\', 'b']
  else if c = '\x0c' then ['\\', 'f']
  else if c.toNat < 0x20 then ['\\', 'u', '0', '0', hexDigit (c.toNat / 16), hexDigit (c.toNat % 16)]
  else [c]

/-- A text between quotes. -/
def quoted (s : String) : List Char :=
  ['"'] ++ s.toList.flatMap escape ++ ['"']

/-- A line feed and the indentation of a level. -/
def newline (depth : Nat) : List Char :=
  '\n' :: List.replicate (2 * depth) ' '

/-- How the parts of a list or record are set apart. -/
structure Layout where
  /-- What stands before each part at a level. -/
  before : Nat → List Char
  colon : List Char

/-- Everything on one line, without blanks. -/
def Layout.compact : Layout := ⟨fun _ => [], [':']⟩

/-- A line for every part, two blanks deeper at each level. -/
def Layout.pretty : Layout := ⟨newline, [':', ' ']⟩

mutual

/-- Writes a document that stands at the level `depth`. -/
def write (l : Layout) (depth : Nat) : Document → List Char
  | text s => quoted s
  | number n => (toString n).toList
  | boolean b => (if b then "true" else "false").toList
  | list [] => ['[', ']']
  | list (x :: xs) =>
    '[' :: (l.before (depth + 1) ++ write l (depth + 1) x ++ writeItems l depth xs) ++
      (l.before depth ++ [']'])
  | record [] => ['\x7b', '\x7d']
  | record ((k, x) :: xs) =>
    '\x7b' :: (l.before (depth + 1) ++ quoted k ++ l.colon ++ write l (depth + 1) x ++
      writeFields l depth xs) ++ (l.before depth ++ ['\x7d'])

/-- Writes the items after the first. -/
def writeItems (l : Layout) (depth : Nat) : List Document → List Char
  | [] => []
  | x :: xs => ',' :: (l.before (depth + 1) ++ write l (depth + 1) x ++ writeItems l depth xs)

/-- Writes the fields after the first. -/
def writeFields (l : Layout) (depth : Nat) : List (String × Document) → List Char
  | [] => []
  | (k, x) :: xs =>
    ',' :: (l.before (depth + 1) ++ quoted k ++ l.colon ++ write l (depth + 1) x ++
      writeFields l depth xs)

end

/-- The document on one line. -/
def compact (d : Document) : String := String.ofList (d.write .compact 0)

/-- The document with a line for every part. -/
def pretty (d : Document) : String := String.ofList (d.write .pretty 0)

end Document
end CompilerDriver.Json
