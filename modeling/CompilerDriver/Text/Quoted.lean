import CompilerDriver.Text.Standalone
/-!
Quoted text, as diagnostics show names and strings.

A quoted text stands between double quotes. A quote and a backslash take a backslash, the usual control
characters their letter, and every other character that cannot be shown as it is the form `\u{...}` with
its code point in hexadecimal.
-/
namespace CompilerDriver.Text.Quoted

/-- A digit of a code point. -/
def hexDigit (n : Nat) : Char :=
  if n < 10 then Char.ofNat (48 + n) else Char.ofNat (87 + n)

/-- The hexadecimal digits of `n`, with at least one. -/
def hexDigits (n : Nat) : List Char :=
  if n < 16 then [hexDigit n] else hexDigits (n / 16) ++ [hexDigit (n % 16)]

/-- The code point in braces, for a character that cannot be shown. -/
def codePoint (c : Char) : List Char :=
  ['\\', 'u', '\x7b'] ++ hexDigits c.toNat ++ ['\x7d']

/-- One character inside the quotes. -/
def encodeChar (c : Char) : List Char :=
  match c with
  | '\x00' => ['\\', '0']
  | '\t' => ['\\', 't']
  | '\r' => ['\\', 'r']
  | '\n' => ['\\', 'n']
  | '"' => ['\\', '"']
  | '\\' => ['\\', '\\']
  | c => if isStandalone c then [c] else codePoint c

/-- `s` between quotes. -/
def encode (s : String) : String :=
  String.ofList (['"'] ++ s.toList.flatMap encodeChar ++ ['"'])

/-- Several quoted texts between brackets. -/
def encodeList (ss : List String) : String :=
  "[" ++ ", ".intercalate (ss.map encode) ++ "]"

end CompilerDriver.Text.Quoted
