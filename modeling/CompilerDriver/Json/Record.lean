import CompilerDriver.Json.Skip
/-!
Readers for the values that the driver's files are made of: scalars, lists, maps and records.

A reader says what it expects. What it finds instead is read as far as the message shows it. Values that are
read, not skipped, may be nested only so deep; every reader that opens a bracket has the number of brackets it
may open as its first argument.
-/
namespace CompilerDriver.Json.Reader

/-- The number of brackets that may be open at once. -/
def greatestDepth : Nat := 127

/-- Fails because of the value that stands here instead of what was expected. -/
def mismatch {α : Type} (expected : String) : Reader α := do
  match ← peek with
  | none => failNext .expectedValue
  | some c =>
    if c = 'n' then do
      word ['n', 'u', 'l', 'l']
      failAt (.wrongType .null expected)
    else if c = 't' then do
      word ['t', 'r', 'u', 'e']
      failAt (.wrongType (.boolean true) expected)
    else if c = 'f' then do
      word ['f', 'a', 'l', 's', 'e']
      failAt (.wrongType (.boolean false) expected)
    else if c = '"' then do
      drop
      let s ← stringRest
      failAt (.wrongType (.text s) expected)
    else if c = '-' || isDigit c then do
      let n ← signedNumber
      failAt (.wrongType n.found expected)
    else if c = '[' then failAt (.wrongType .sequence expected)
    else if c = '\x7b' then failAt (.wrongType .map expected)
    else failNext .expectedValue

/-- Drops blanks and shows the first character of a value. -/
def peekValue : Reader Char := do
  match ← peekPart with
  | none => failNext .endInValue
  | some c => return c

/-- Takes a string that messages call `expected`. -/
def stringAs (expected : String) : Reader String := do
  if (← peekValue) = '"' then
    drop
    stringRest
  else mismatch expected

/-- Takes a string. -/
def string : Reader String := stringAs "a string"

/-- Takes a string of one character. -/
def character : Reader Char := do
  let s ← stringAs "a character"
  match s.toList with
  | [c] => return c
  | _ => failAt (.wrongValue (.text s) "a character")

/-- Takes `true` or `false`. -/
def boolean : Reader Bool := do
  match ← peekValue with
  | 't' => do
    word ['t', 'r', 'u', 'e']
    return true
  | 'f' => do
    word ['f', 'a', 'l', 's', 'e']
    return false
  | _ => mismatch "a boolean"

/-- Takes a natural number of 64 bits. -/
def natural : Reader Nat := do
  let c ← peekValue
  if c = '-' || isDigit c then
    match ← signedNumber with
    | .natural n => return n
    | .negative n => failAt (.wrongValue (.integer n) "u64")
    | .real x => failAt (.wrongType (.real x) "u64")
  else mismatch "u64"

/-- Takes `null`, or else what `item` takes. -/
def optional {α : Type} (item : Reader α) : Reader (Option α) := do
  if (← peekPart) = some 'n' then
    word ['n', 'u', 'l', 'l']
    return none
  else return some (← item)

/-- Whether a list goes on, after its first item or at its beginning. -/
def hasItem (first : Bool) : Reader Bool := do
  match ← peekPart with
  | none => failNext .endInList
  | some ']' => return false
  | some ',' =>
    if first then return true
    else do
      drop
      match ← peekPart with
      | some ']' => failNext .trailingComma
      | some _ => return true
      | none => failNext .endInValue
  | some _ => if first then return true else failNext .expectedListEnd

/-- Takes the end of a list. -/
def endList : Reader Unit := do
  match ← peekPart with
  | some ']' => drop
  | some ',' => do
    drop
    if (← peekPart) = some ']' then failNext .trailingComma else failNext .trailingCharacters
  | some _ => failNext .trailingCharacters
  | none => failNext .endInList

/-- Whether an object goes on, after its first field or at its beginning. The quote of the next name is
not taken. -/
def hasField (first : Bool) : Reader Bool := do
  match ← peekPart with
  | none => failNext .endInObject
  | some '\x7d' => return false
  | some c =>
    if first then if c = '"' then return true else failNext .keyNotString
    else if c = ',' then do
      drop
      match ← peekPart with
      | some '"' => return true
      | some '\x7d' => failNext .trailingComma
      | some _ => failNext .keyNotString
      | none => failNext .endInValue
    else failNext .expectedObjectEnd

/-- Takes the name of a field. -/
def fieldName : Reader String := do
  drop
  stringRest

/-- Takes the colon after the name of a field. -/
def colon : Reader Unit := do
  match ← peekPart with
  | some ':' => drop
  | some _ => failNext .expectedColon
  | none => failNext .endInObject

/-- Takes an opening bracket, if there may be one more, and goes on with what is left of the depth. -/
def nested {α : Type} (depth : Nat) (body : Nat → Reader α) : Reader α :=
  match depth with
  | 0 => failNext .tooDeep
  | inner + 1 => do
    drop
    body inner

/-- Takes items up to the end of a list, in at most so many steps. -/
def items {α : Type} (item : Reader α) : Nat → Bool → Reader (List α)
  | 0, _ => failAt .endInList
  | steps + 1, first => do
    if ← hasItem first then
      let x ← item
      return x :: (← items item steps false)
    else do
      drop
      return []

/-- Takes a list. The reader of its items gets the depth that is left. -/
def list {α : Type} (depth : Nat) (item : Nat → Reader α) : Reader (List α) := do
  if (← peekValue) = '[' then
    nested depth fun inner => do
      let s ← get
      items (item inner) (s.length + 1) true
  else mismatch "a sequence"

/-- Takes fields up to the end of a map, in at most so many steps. -/
def mapFields {α : Type} (value : Reader α) : Nat → Bool → Reader (List (String × α))
  | 0, _ => failAt .endInObject
  | steps + 1, first => do
    if ← hasField first then
      let k ← fieldName
      colon
      let v ← value
      return (k, v) :: (← mapFields value steps false)
    else do
      drop
      return []

/-- Takes a map. The reader of its values gets the depth that is left. -/
def map {α : Type} (depth : Nat) (value : Nat → Reader α) : Reader (List (String × α)) := do
  if (← peekValue) = '\x7b' then
    nested depth fun inner => do
      let s ← get
      mapFields (value inner) (s.length + 1) true
  else mismatch "a map"

/-- A field of a record that is read into a draft of the record. -/
structure Field (σ : Type) where
  name : String
  /-- The field has been read. -/
  filled : σ → Bool
  /-- Reads the field into the draft. -/
  read : σ → Reader σ
  /-- The record cannot do without the field. -/
  required : Bool := false

/-- How a record is read: either an object whose fields may come in any order, or a list of the fields in their
order, from which the last may be missing. -/
structure Shape (σ α : Type) where
  /-- What messages call the record. -/
  name : String
  /-- The fields, given the depth that is left. -/
  fields : Nat → List (Field σ)
  blank : σ
  /-- The record, from a draft with all required fields; it fills in the rest. -/
  finish : σ → Option α

/-- Drops blanks and a closing brace, if one is there. -/
def skipClose : Reader Unit := do
  if (← peekPart) = some '\x7d' then drop

/-- Takes fields up to the end of an object, in at most so many steps. Fields that the record does not have are
skipped. -/
def recordFields {σ : Type} (fields : List (Field σ)) : Nat → Bool → σ → Reader σ
  | 0, _, _ => failAt .endInObject
  | steps + 1, first, draft => do
    if ← hasField first then
      let k ← fieldName
      match fields.find? (·.name = k) with
      | none => do
        colon
        skipValue
        recordFields fields steps false draft
      | some f =>
        if f.filled draft then do
          skipClose
          failAt (.duplicateField k)
        else do
          colon
          let draft ← f.read draft
          recordFields fields steps false draft
    else do
      drop
      return draft

/-- Takes the fields of a record that is written as a list; `before` have been read. -/
def recordItems {σ : Type} : List (Field σ) → Bool → σ → Reader (σ × Bool)
  | [], _, draft => return (draft, true)
  | f :: fs, first, draft => do
    if ← hasItem first then
      let draft ← f.read draft
      recordItems fs false draft
    else return (draft, false)

/-- The name and the place of the first required field that has not been read. -/
def missing? {σ : Type} (fields : List (Field σ)) (draft : σ) : Option (Nat × String) :=
  (fields.zipIdx.find? fun f => f.1.required && !f.1.filled draft).map fun f => (f.2, f.1.name)

/-- What messages call a record with its number of fields. -/
def Shape.counted {σ α : Type} (shape : Shape σ α) : String :=
  let n := (shape.fields 0).length
  s!"{shape.name} with {n} element" ++ if n = 1 then "" else "s"

/-- Takes a record. -/
def record {σ α : Type} (depth : Nat) (shape : Shape σ α) : Reader α := do
  match ← peekValue with
  | '\x7b' =>
    nested depth fun inner => do
      let fields := shape.fields inner
      let s ← get
      let draft ← recordFields fields (s.length + 1) true shape.blank
      match missing? fields draft, shape.finish draft with
      | none, some r => return r
      | some (_, name), _ => failAt (.missingField name)
      | none, none => mismatch shape.name
  | '[' =>
    nested depth fun inner => do
      let fields := shape.fields inner
      let (draft, _) ← recordItems fields true shape.blank
      match missing? fields draft, shape.finish draft with
      | none, some r => do
        endList
        return r
      | some (place, _), _ => do
        endList
        failAt (.tooShort place shape.counted)
      | none, none => mismatch shape.name
  | _ => mismatch shape.name

/-- Takes the end of the text. -/
def endOfText : Reader Unit := do
  if (← peekPart).isSome then failNext .trailingCharacters

/-- Reads all of a text. -/
def run {α : Type} (r : Reader α) (text : String) : Except String α :=
  match (do let x ← r; endOfText; return x : Reader α) text.toList with
  | .ok (x, _) => .ok x
  | .error f => .error (f.message text)

end CompilerDriver.Json.Reader
