import CompilerDriver.Invocation
/-!
Option values as scalars: integers of a fixed width, truth values, characters and plain text.

An integer is read digit by digit and refused at the first digit that is none or that leaves the range, so
what stands after that digit does not matter.
-/
namespace CompilerDriver

/-- What a value is read as. -/
inductive Scalar.Kind where
  | unsigned (bits : Nat)
  | signed (bits : Nat)
  | boolean
  | character
  | text
deriving DecidableEq

/-- A value that was read. -/
inductive Scalar where
  | integer (n : Int)
  | boolean (b : Bool)
  | character (c : Char)
  | text (s : String)
deriving DecidableEq

namespace Scalar

/-- Why a text is not such a value. -/
inductive Error where
  | empty
  | invalidDigit
  | tooLarge
  | tooSmall
  | notBoolean
  | noCharacter
  | severalCharacters
deriving DecidableEq

/-- The error in words. -/
def Error.message : Error → String
  | empty => "cannot parse integer from empty string"
  | invalidDigit => "invalid digit found in string"
  | tooLarge => "number too large to fit in target type"
  | tooSmall => "number too small to fit in target type"
  | notBoolean => "provided string was not `true` or `false`"
  | noCharacter => "cannot parse char from empty string"
  | severalCharacters => "too many characters in string"

/-- The value of an ASCII digit. -/
def digit? (c : Char) : Option Nat :=
  if '0' ≤ c ∧ c ≤ '9' then some (c.toNat - 48) else none

/-- Reads digits after those that made `n`; a number beyond `limit` is refused with `beyond`. -/
def readDigits (limit : Nat) (beyond : Error) (n : Nat) : List Char → Except Error Nat
  | [] => .ok n
  | c :: cs =>
    match digit? c with
    | none => .error .invalidDigit
    | some d => if limit < n * 10 + d then .error beyond else readDigits limit beyond (n * 10 + d) cs

/-- Reads an integer from `low` to `high`. A minus sign counts as a sign only where there are negative
numbers, and a sign alone is no number. -/
def readInteger (low : Int) (high : Nat) (s : String) : Except Error Int :=
  match s.toList with
  | [] => .error .empty
  | ['+'] => .error .invalidDigit
  | ['-'] => .error .invalidDigit
  | '+' :: cs => (readDigits high .tooLarge 0 cs).map Int.ofNat
  | '-' :: cs =>
    if low < 0 then (readDigits low.natAbs .tooSmall 0 cs).map fun n => -(n : Int)
    else .error .invalidDigit
  | cs => (readDigits high .tooLarge 0 cs).map Int.ofNat

/-- Reads a value of a kind. -/
def read (k : Kind) (s : String) : Except Error Scalar :=
  match k with
  | .unsigned bits => (readInteger 0 (Nat.pow 2 bits - 1) s).map integer
  | .signed bits => (readInteger (-(Nat.pow 2 (bits - 1) : Int)) (Nat.pow 2 (bits - 1) - 1) s).map integer
  | .boolean =>
    if s = "true" then .ok (boolean true)
    else if s = "false" then .ok (boolean false)
    else .error .notBoolean
  | .character =>
    match s.toList with
    | [] => .error .noCharacter
    | [c] => .ok (character c)
    | _ => .error .severalCharacters
  | .text => .ok (text s)

/-- The plain text of a value. -/
def toText : Scalar → String
  | integer n => toString n
  | boolean b => if b then "true" else "false"
  | character c => String.singleton c
  | text s => s

end Scalar

namespace Invocation

/-- Why the value of an option cannot be used. -/
structure ValueError where
  name : String
  raw : String
  cause : Scalar.Error

/-- The error in words. -/
def ValueError.message (e : ValueError) : String :=
  s!"invalid value '{e.raw}' for --{e.name}: {e.cause.message}"

/-- Reads the last value of an option, if it has any. -/
def readValue (i : Invocation) (kind : Scalar.Kind) (name : String) : Except ValueError (Option Scalar) :=
  match i.value? name with
  | none => .ok none
  | some raw =>
    match Scalar.read kind raw with
    | .ok v => .ok (some v)
    | .error cause => .error { name, raw, cause }

end Invocation
end CompilerDriver
