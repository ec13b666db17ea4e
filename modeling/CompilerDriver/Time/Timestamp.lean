import CompilerDriver.Text.Blank
import CompilerDriver.Text.Utf8
import CompilerDriver.Time.Instant
/-!
Instants as text: a date, a time of day and an offset from universal time.

What is written has four digits for the year (a sign and more where they do not suffice), as many fractional
digits as needed in groups of three, and `Z` for the offset. Reading is more relaxed: numbers may be shorter,
blanks may stand before each part, and the offset may be any below a day.
-/
namespace CompilerDriver.Time.Timestamp

/-! ### Writing -/

/-- `n` in decimal with zeros in front up to `width` digits. -/
def padded (width n : Nat) : List Char :=
  let ds := (toString n).toList
  List.replicate (width - ds.length) '0' ++ ds

/-- A year: four digits, or a sign and at least four. -/
def writeYear (y : Int) : List Char :=
  if 0 ≤ y ∧ y ≤ 9999 then padded 4 y.toNat
  else (if y < 0 then '-' else '+') :: padded 4 y.natAbs

/-- A fraction of a second: nothing, or three, six or nine digits. -/
def writeFraction (nanos : Nat) : List Char :=
  if nanos = 0 then []
  else if nanos % 1000000 = 0 then '.' :: padded 3 (nanos / 1000000)
  else if nanos % 1000 = 0 then '.' :: padded 6 (nanos / 1000)
  else '.' :: padded 9 nanos

/-- An instant in universal time. A leap second is the second 60. -/
def write (t : Instant) : String :=
  let date := Date.ofDays t.days
  let s := t.secondOfDay.toNat
  let second := s % 60 + if t.isLeap then 1 else 0
  String.ofList (
    writeYear date.year ++ ['-'] ++ padded 2 date.month ++ ['-'] ++ padded 2 date.day ++ ['T'] ++
    padded 2 (s / 3600) ++ [':'] ++ padded 2 (s / 60 % 60) ++ [':'] ++ padded 2 second ++
    writeFraction (t.nanos % Instant.nanosPerSecond) ++ ['Z'])

/-! ### Reading -/

/-- Why a text is not an instant. -/
inductive Error where
  | tooShort
  | invalid
  | outOfRange
  | impossible
  | trailing
deriving DecidableEq

/-- The error in words. -/
def Error.message : Error → String
  | tooShort => "premature end of input"
  | invalid => "input contains invalid characters"
  | outOfRange => "input is out of range"
  | impossible => "no possible date and time matching input"
  | trailing => "trailing input"

/-- Takes a value off the front of a text. -/
abbrev Reader (α : Type) := StateT (List Char) (Except Error) α

/-- Drops blanks. -/
def skipBlanks : Reader Unit := modify Text.trimStart

/-- A decimal digit. -/
def isDigit (c : Char) : Bool := '0' ≤ c && c ≤ '9'

/-- The number that digits make. -/
def digitsValue (ds : List Char) : Nat := ds.foldl (fun n c => n * 10 + (c.toNat - 48)) 0

/-- No number may be greater. -/
def greatestNumber : Nat := Nat.pow 2 63 - 1

/-- Takes at least one digit and at most `width`. -/
def number (width : Nat) : Reader Nat := do
  let s ← get
  match s with
  | [] => throw .tooShort
  | c :: _ =>
    if !isDigit c then throw .invalid
    else
      let ds := (s.take width).takeWhile isDigit
      if digitsValue ds > greatestNumber then throw .outOfRange
      else
        set (s.drop ds.length)
        return digitsValue ds

/-- Takes a number between two bounds, after blanks. -/
def bounded (low high : Nat) : Reader Nat := do
  skipBlanks
  let n ← number 2
  if n < low ∨ high < n then throw .outOfRange
  return n

/-- Takes one character, after blanks. -/
def literal (c : Char) : Reader Unit := do
  skipBlanks
  match ← get with
  | [] => throw .tooShort
  | d :: rest => if d = c then set rest else throw .invalid

/-- Takes a year, after blanks: at most four digits, or a sign and any number of them. -/
def year : Reader Int := do
  skipBlanks
  let s ← get
  let y : Int ← match s with
    | '-' :: rest => do
      set rest
      pure (-(← number rest.length : Int))
    | '+' :: rest => do
      set rest
      pure (← number rest.length : Int)
    | _ => do pure (← number 4 : Int)
  if y < -(Nat.pow 2 31 : Int) ∨ (Nat.pow 2 31 : Int) ≤ y then throw .outOfRange
  return y

/-- Takes what separates the date from the time. -/
def separator : Reader Unit := do
  match ← get with
  | [] => throw .tooShort
  | c :: rest => if c = 'T' ∨ c = 't' ∨ c = ' ' then set rest else throw .invalid

/-- Takes a fraction of a second, if there is one, in nanoseconds. Digits after the ninth are dropped. -/
def fraction : Reader Nat := do
  match ← get with
  | '.' :: rest => do
    set rest
    let n ← number 9
    let taken := rest.length - (← get).length
    modify (·.dropWhile isDigit)
    return n * Nat.pow 10 (9 - taken)
  | _ => return 0

/-- Takes two digits, the first of them at most `tens`. A greater first digit is out of range. -/
def twoDigits (tens : Nat) : Reader Nat := do
  let s ← get
  if Text.Utf8.size s < 2 then throw .tooShort
  else match s with
    | a :: b :: rest =>
      if !isDigit a || !isDigit b then throw .invalid
      else if digitsValue [a] > tens then throw .outOfRange
      else
        set rest
        return digitsValue [a, b]
    | _ => throw .invalid

/-- A letter in lower case, for the letters of `UTC`. -/
def lowerLetter (c : Char) : Char := if 'A' ≤ c ∧ c ≤ 'Z' then Char.ofNat (c.toNat + 32) else c

/-- Takes the offset from universal time, in seconds. -/
def offset : Reader Int := do
  let s ← get
  if (s.take 3).map lowerLetter = ['u', 't', 'c'] then
    set (s.drop 3)
    return 0
  else match s with
    | [] => throw .tooShort
    | c :: rest =>
      if c = 'Z' ∨ c = 'z' then do
        set rest
        return 0
      else if c = '+' ∨ c = '-' ∨ c = '−' then do
        set rest
        let hours ← twoDigits 9
        modify (·.dropWhile fun d => d = ':' || Text.isBlank d)
        let minutes ← twoDigits 5
        let seconds : Int := hours * 3600 + minutes * 60
        return if c = '+' then seconds else -seconds
      else throw .invalid

/-- The instant at which clocks show this date and time where they are ahead by `ahead` seconds. -/
def assemble (date : Date) (hour minute second nanos : Nat) (ahead : Int) : Except Error Instant :=
  let leap := second = 60
  let second := if leap then 59 else second
  let nanos := if leap then nanos + Instant.nanosPerSecond else nanos
  if !date.isValid || date.year < Instant.leastYear || Instant.greatestYear < date.year then
    .error .outOfRange
  else if Instant.secondsPerDay ≤ ahead.natAbs then .error .outOfRange
  else
    let clock : Int := hour * 3600 + minute * 60 + second
    let t : Instant := ⟨date.toDays * Instant.secondsPerDay + clock - ahead, nanos⟩
    let y := (Date.ofDays t.days).year
    if y < Instant.leastYear ∨ Instant.greatestYear < y then .error .impossible else .ok t

/-- Takes an instant and the blanks after it. -/
def instant : Reader Instant := do
  let y ← year
  literal '-'
  let month ← bounded 1 12
  literal '-'
  let day ← bounded 1 31
  separator
  let hour ← bounded 0 23
  literal ':'
  let minute ← bounded 0 59
  literal ':'
  let second ← bounded 0 60
  let nanos ← fraction
  skipBlanks
  let ahead ← offset
  skipBlanks
  if (← get) ≠ [] then throw .trailing
  match assemble ⟨y, month, day⟩ hour minute second nanos ahead with
  | .ok t => return t
  | .error e => throw e

/-- Reads an instant. -/
def read (s : String) : Except Error Instant :=
  match instant s.toList with
  | .ok (t, _) => .ok t
  | .error e => .error e

end CompilerDriver.Time.Timestamp
