import CompilerDriver.Json.Number
/-!
Skipping values that nobody asks for. Only their syntax is checked: numbers may have any size, and brackets may
be nested to any depth.
-/
namespace CompilerDriver.Json.Reader

/-- An open bracket around the value that is skipped. -/
inductive Frame where
  | list
  | object
deriving DecidableEq

/-- What comes next in the skipped text. -/
inductive Stage where
  /-- A value. -/
  | value
  /-- What follows a value inside the innermost bracket. -/
  | after

/-- The text ended inside a bracket. -/
def Frame.ended : Frame → Cause
  | list => .endInList
  | object => .endInObject

/-- Neither a comma nor the closing bracket came. -/
def Frame.unclosed : Frame → Cause
  | list => .expectedListEnd
  | object => .expectedObjectEnd

/-- The closing bracket. -/
def Frame.close : Frame → Char
  | list => ']'
  | object => '\x7d'

/-- Takes the name of a field and its colon, inside an object; nothing inside a list. -/
def skipName : Frame → Reader Unit
  | .list => pure ()
  | .object => do
    match ← peekPart with
    | some '"' => do
      drop
      skipString
    | some _ => failNext .keyNotString
    | none => failNext .endInObject
    match ← peekPart with
    | some ':' => drop
    | some _ => failNext .expectedColon
    | none => failNext .endInObject

/-- Skips up to the end of the outermost value, in at most so many steps. -/
def skipSteps : Nat → Stage → List Frame → Reader Unit
  | 0, _, _ => failAt .endInValue
  | steps + 1, .value, open' => do
    let enter (f : Frame) : Reader Unit := do
      drop
      match ← peekPart with
      | none => failNext f.ended
      | some c =>
        if c = f.close then do
          drop
          skipSteps steps .after open'
        else do
          skipName f
          skipSteps steps .value (f :: open')
    match ← peekPart with
    | none => failNext .endInValue
    | some '[' => enter .list
    | some '\x7b' => enter .object
    | some c => do
      if c = 'n' then word ['n', 'u', 'l', 'l']
      else if c = 't' then word ['t', 'r', 'u', 'e']
      else if c = 'f' then word ['f', 'a', 'l', 's', 'e']
      else if c = '"' then do
        drop
        skipString
      else if c = '-' || isDigit c then skipNumber
      else failNext .expectedValue
      skipSteps steps .after open'
  | _ + 1, .after, [] => pure ()
  | steps + 1, .after, f :: open' => do
    match ← peekPart with
    | none => failNext f.ended
    | some c =>
      if c = ',' then do
        drop
        skipName f
        skipSteps steps .value (f :: open')
      else if c = f.close then do
        drop
        skipSteps steps .after open'
      else failNext f.unclosed

/-- Skips a value. Every step but the last takes a character, so the text's length bounds them. -/
def skipValue : Reader Unit := do
  let s ← get
  skipSteps (2 * s.length + 2) .value []

end CompilerDriver.Json.Reader
