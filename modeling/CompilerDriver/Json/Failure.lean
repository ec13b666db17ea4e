import CompilerDriver.Decimal.Shortest
import CompilerDriver.Text.Quoted
import CompilerDriver.Text.Utf8
/-!
Why a JSON text cannot be read, and where.

A failure remembers the text that was left when it arose, so the reader itself counts no positions. Lines
and columns are counted in bytes when the failure is shown.
-/
namespace CompilerDriver.Json

/-- A value that is not what was expected, as far as a message shows it. -/
inductive Found where
  | null
  | boolean (b : Bool)
  | integer (n : Int)
  | real (x : Float)
  | text (s : String)
  | sequence
  | map

/-- Numbers with a point are positional from 0.00001 up to below 10^16. -/
def realFormat : Decimal.Format := ⟨-5, 15⟩

/-- The value in a message. -/
def Found.describe : Found → String
  | null => "null"
  | boolean b => "boolean `" ++ (if b then "true" else "false") ++ "`"
  | integer n => s!"integer `{n}`"
  | real x => "floating point `" ++ realFormat.writeFloat x ++ "`"
  | text s => "string " ++ Text.Quoted.encode s
  | sequence => "sequence"
  | map => "map"

/-- What is wrong with a text. -/
inductive Cause where
  | endInValue
  | endInString
  | endInList
  | endInObject
  | expectedValue
  | expectedIdent
  | expectedColon
  | expectedListEnd
  | expectedObjectEnd
  | keyNotString
  | trailingComma
  | trailingCharacters
  | invalidNumber
  | numberOutOfRange
  | controlCharacter
  | invalidEscape
  | loneSurrogate
  | unfinishedPair
  | tooDeep
  | wrongType (found : Found) (expected : String)
  | wrongValue (found : Found) (expected : String)
  | tooShort (length : Nat) (expected : String)
  | missingField (name : String)
  | duplicateField (name : String)
  | other (text : String)

/-- The cause in words. -/
def Cause.message : Cause → String
  | endInValue => "EOF while parsing a value"
  | endInString => "EOF while parsing a string"
  | endInList => "EOF while parsing a list"
  | endInObject => "EOF while parsing an object"
  | expectedValue => "expected value"
  | expectedIdent => "expected ident"
  | expectedColon => "expected `:`"
  | expectedListEnd => "expected `,` or `]`"
  | expectedObjectEnd => "expected `,` or `\x7d`"
  | keyNotString => "key must be a string"
  | trailingComma => "trailing comma"
  | trailingCharacters => "trailing characters"
  | invalidNumber => "invalid number"
  | numberOutOfRange => "number out of range"
  | controlCharacter => "control character (\\u0000-\\u001F) found while parsing a string"
  | invalidEscape => "invalid escape"
  | loneSurrogate => "lone leading surrogate in hex escape"
  | unfinishedPair => "unexpected end of hex escape"
  | tooDeep => "recursion limit exceeded"
  | wrongType found expected => s!"invalid type: {found.describe}, expected {expected}"
  | wrongValue found expected => s!"invalid value: {found.describe}, expected {expected}"
  | tooShort length expected => s!"invalid length {length}, expected {expected}"
  | missingField name => s!"missing field `{name}`"
  | duplicateField name => s!"duplicate field `{name}`"
  | other text => text

/-- A cause and the place where it shows: so many bytes into what was left of the text. -/
structure Failure where
  cause : Cause
  rest : List Char
  ahead : Nat := 0

/-- The number of line feeds in the first bytes of a text, and the bytes after the last of them. -/
def position : Nat → List Char → Nat × Nat
  | bytes, cs => go bytes 1 0 cs
where
  go (bytes line column : Nat) : List Char → Nat × Nat
    | [] => (line, column)
    | c :: cs =>
      if bytes = 0 then (line, column)
      else if c = '\n' then go (bytes - 1) (line + 1) 0 cs
      else go (bytes - Text.Utf8.width c) line (column + min bytes (Text.Utf8.width c)) cs

/-- The failure of reading `text` in words. -/
def Failure.message (text : String) (f : Failure) : String :=
  let total := Text.Utf8.size text.toList
  let (line, column) := position (min (total - Text.Utf8.size f.rest + f.ahead) total) text.toList
  s!"{f.cause.message} at line {line} column {column}"

end CompilerDriver.Json
