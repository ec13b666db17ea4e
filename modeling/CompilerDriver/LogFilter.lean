import CompilerDriver.Console
/-!
Which log lines are shown.

A filter is a list of rules between commas. A rule is a level, or the name of a part of the driver with a level
behind an equals sign. Of the rules for the driver, the one with the longest name decides; of two with one name,
the later.
-/
namespace CompilerDriver

/-- Shows lines of a part of the driver up to a level. -/
structure LogRule where
  target : String
  /-- The rank of the last level that is shown; 0 shows none. -/
  threshold : Nat
deriving DecidableEq

/-- Which log lines are shown. -/
structure LogFilter where
  rules : List LogRule
deriving DecidableEq

namespace LogFilter

/-- The environment variable that holds the filter. -/
def variableName : String := "PSHDL_LOG"

/-- The part that all log lines of the driver belong to. -/
def ownTarget : String := "pshdl"

/-- The levels that a rule can name, in any case of the letters, and by number. -/
def threshold? (s : String) : Option Nat :=
  let small := String.ofList (s.toList.map Char.toLower)
  (["off", "error", "warn", "info", "debug", "trace"].idxOf? small).or
    (s.toNat?.filter fun n => s.length = 1 && n ≤ 5)

/-- A name of a part is made of letters, digits and a few signs. -/
def isTarget (s : String) : Bool :=
  s ≠ "" && s.toList.all fun c => c.isAlphanum || c = '_' || c = ':' || c = '-'

/-- Reads a rule. A name alone shows all of that part. -/
def rule? (s : String) : Option LogRule :=
  match threshold? s with
  | some n => some ⟨"", n⟩
  | none =>
    let target := String.ofList (s.toList.takeWhile (· ≠ '='))
    let rest := String.ofList (s.toList.drop (target.length + 1))
    if !isTarget target then none
    else if rest = "" then some ⟨target, 5⟩
    else (threshold? rest).map (⟨target, ·⟩)

/-- Shows warnings and what is graver. -/
def usual : LogFilter := ⟨[⟨"", 2⟩]⟩

/-- Reads a filter. Without any rule only errors are shown. -/
def read? (s : String) : Option LogFilter :=
  match ((splitCommas s.toList).filter (· ≠ [])).mapM fun r => rule? (String.ofList r) with
  | none => none
  | some [] => some ⟨[⟨"", 1⟩]⟩
  | some rules => some ⟨rules⟩
where
  /-- The texts between the commas. -/
  splitCommas : List Char → List (List Char)
    | [] => [[]]
    | c :: cs =>
      match splitCommas cs with
      | [] => [[c]]
      | r :: rs => if c = ',' then [] :: r :: rs else (c :: r) :: rs

/-- The filter that the environment asks for. -/
def ofVariable (value : Option String) : LogFilter := (value.bind read?).getD usual

/-- The rule that decides, of two that are for the driver. -/
def stronger (best : Option LogRule) (r : LogRule) : Option LogRule :=
  if r.target.toList.isPrefixOf ownTarget.toList then
    match best with
    | some b => if b.target.length ≤ r.target.length then some r else some b
    | none => some r
  else best

/-- A line of this level is shown. -/
def shows (f : LogFilter) (level : Level) : Bool :=
  match f.rules.foldl stronger none with
  | some r => level.rank ≤ r.threshold
  | none => false

end LogFilter
end CompilerDriver
