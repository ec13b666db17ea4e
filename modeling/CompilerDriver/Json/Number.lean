import CompilerDriver.Json.Reader
/-!
Reading numbers.

A number without fraction and exponent is an integer if it fits 64 bits. Any other is real: its first digits
make a 64-bit significand, digits beyond that only count, and the significand is scaled by powers of ten in
floating point.
-/
namespace CompilerDriver.Json

/-- A number that was read. -/
inductive Number where
  | natural (n : Nat)
  | negative (n : Int)
  | real (x : Float)

/-- The number in a message. -/
def Number.found : Number → Found
  | natural n => .integer n
  | negative n => .integer n
  | real x => .real x

namespace Reader

/-- A decimal digit. -/
def isDigit (c : Char) : Bool := '0' ≤ c && c ≤ '9'

/-- The value of a decimal digit. -/
def digitValue (c : Char) : Nat := c.toNat - 48

/-- The digits so far: their value, and the power of ten to scale it by. -/
structure Significand where
  value : Nat := 0
  exponent : Int := 0
  /-- The value is full: further digits do not change it. -/
  full : Bool := false

/-- The greatest value of a significand. -/
def greatestSignificand : Nat := Nat.pow 2 64 - 1

/-- Appends a digit before the point. Once the value is full, digits only scale it. -/
def Significand.pushWhole (d : Significand) (c : Char) : Significand :=
  let next := d.value * 10 + digitValue c
  if d.full || next > greatestSignificand then { d with exponent := d.exponent + 1, full := true }
  else { d with value := next }

/-- Appends a digit after the point. Once the value is full, digits are dropped. -/
def Significand.pushFraction (d : Significand) (c : Char) : Significand :=
  let next := d.value * 10 + digitValue c
  if d.full || next > greatestSignificand then { d with full := true }
  else { d with value := next, exponent := d.exponent - 1 }

/-- Takes digits. -/
def digits : Reader (List Char) := do
  let s ← get
  set (s.dropWhile isDigit)
  return s.takeWhile isDigit

/-- `10 ^ n` as a floating-point number. -/
def powerOfTen (n : Nat) : Float := OfScientific.ofScientific 1 false n

/-- The greatest power of ten that is a floating-point number. -/
def greatestPower : Nat := 308

/-- Scales `x` by a power of ten. A power too small for one step takes several, which end at zero; a number too
large for floating point has no result. -/
def scale (x : Float) (exponent : Int) : Option Float :=
  go 4 x exponent
where
  /-- Scales in at most so many steps. -/
  go : Nat → Float → Int → Option Float
    | 0, x, _ => some x
    | steps + 1, x, e =>
      if e.natAbs ≤ greatestPower then
        if 0 ≤ e then
          let y := x * powerOfTen e.toNat
          if y.isInf then none else some y
        else some (x / powerOfTen e.natAbs)
      else if x == 0.0 then some x
      else if 0 ≤ e then none
      else go steps (x / powerOfTen greatestPower) (e + greatestPower)

/-- The real number that a significand makes. -/
def realOf (positive : Bool) (d : Significand) : Reader Number :=
  match scale d.value.toUInt64.toFloat d.exponent with
  | some x => return .real (if positive then x else -x)
  | none => failAt .numberOutOfRange

/-- The greatest power of ten that is read as a number. -/
def greatestExponent : Nat := Nat.pow 2 31 - 1

/-- Reads the digits of a power of ten up to the first one that makes it too large. -/
def exponentDigits (n : Nat) : List Char → Nat × Option (List Char)
  | [] => (n, none)
  | c :: cs =>
    let next := n * 10 + digitValue c
    if next > greatestExponent then (n, some cs) else exponentDigits next cs

/-- Takes the power of ten after `e`. A power too large for a number decides by its sign alone. -/
def exponentPart (positive : Bool) (d : Significand) : Reader Number := do
  drop
  let sign ← peek
  if sign = some '+' ∨ sign = some '-' then drop
  match ← peek with
  | none => failAt .endInValue
  | some c =>
    if !isDigit c then failNext .invalidNumber
    else do
      let ds ← digits
      match exponentDigits 0 ds with
      | (n, none) =>
        let e : Int := if sign = some '-' then d.exponent - n else d.exponent + n
        realOf positive { d with exponent := e }
      | (_, some unread) =>
        if d.value ≠ 0 ∧ sign ≠ some '-' then
          fun rest => .error ⟨.numberOutOfRange, unread ++ rest, 0⟩
        else return .real (if positive then 0.0 else -0.0)

/-- The next character starts a power of ten. -/
def startsExponent (c : Option Char) : Bool := c = some 'e' || c = some 'E'

/-- Takes the fraction after a point. -/
def fractionPart (positive : Bool) (d : Significand) : Reader Number := do
  drop
  let ds ← digits
  if ds.isEmpty then
    match ← peek with
    | none => failNext .endInValue
    | some _ => failNext .invalidNumber
  else
    let d := ds.foldl Significand.pushFraction { d with full := false }
    if startsExponent (← peek) then exponentPart positive d else realOf positive d

/-- An integer: natural, negative, or real if it is a negative zero or does not fit. -/
def wholeNumber (positive : Bool) (n : Nat) : Number :=
  if positive then .natural n
  else if n = 0 ∨ Nat.pow 2 63 < n then .real (-n.toUInt64.toFloat)
  else .negative (-n)

/-- Takes a number whose sign has been taken. -/
def number (positive : Bool) : Reader Number := do
  match ← peek with
  | none => failAt .endInValue
  | some c =>
    if !isDigit c then failNext .invalidNumber
    else
      let ds ← if c = '0' then do
          drop
          pure ['0']
        else digits
      let next ← peek
      if c = '0' ∧ next.any isDigit then failNext .invalidNumber
      else
        let d := ds.foldl Significand.pushWhole {}
        if next = some '.' then fractionPart positive d
        else if startsExponent next then exponentPart positive d
        else if d.full then realOf positive d
        else return wholeNumber positive d.value

/-- Takes a number. -/
def signedNumber : Reader Number := do
  if (← peek) = some '-' then
    drop
    number false
  else number true

/-- Takes the power of ten of a number of which only the syntax matters. -/
def skipExponent : Reader Unit := do
  drop
  let sign ← peek
  if sign = some '+' ∨ sign = some '-' then drop
  if (← peek).any isDigit then do
    let _ ← digits
  else failNext .invalidNumber

/-- Takes a number of which only the syntax matters. -/
def skipNumber : Reader Unit := do
  if (← peek) = some '-' then drop
  match ← peek with
  | some '0' => do
    drop
    if (← peek).any isDigit then failNext .invalidNumber
  | some c => if isDigit c then (do let _ ← digits) else failNext .invalidNumber
  | none => failNext .invalidNumber
  if (← peek) = some '.' then
    drop
    if (← digits).isEmpty then failNext .invalidNumber
  if startsExponent (← peek) then skipExponent

end Reader
end CompilerDriver.Json
