/-!
What can be wrong with a command line, and how the driver says it.
-/
namespace CompilerDriver.CommandLine

/-- A hint for a misspelt option. -/
inductive Tip where
  /-- This command has an option of a similar name. -/
  | similar (name : String)
  /-- A provider that is named later has an option of a similar name. -/
  | elsewhere (provider name : String)
  /-- The argument can be passed on behind `--`. -/
  | escape (argument : String)
deriving DecidableEq

/-- The text of a hint. -/
def Tip.message : Tip → String
  | similar name => s!"a similar argument exists: '--{name}'"
  | elsewhere provider name => s!"'{provider} --{name}' exists"
  | escape argument => s!"to pass '{argument}' as a value, use '-- {argument}'"

/-- Why a command line is refused. Arguments are given as messages name them. -/
inductive UsageError where
  | unexpected (argument : String) (tip : Option Tip) (usage : String)
  | repeated (argument usage : String)
  | unwantedValue (value argument usage : String)
  | missingValue (argument : String)
  | notText (usage : String)
deriving DecidableEq

/-- The message for the user. -/
def UsageError.message : UsageError → String
  | unexpected argument tip usage =>
    let hint := match tip with
      | some t => s!"  tip: {t.message}\n\n"
      | none => ""
    s!"error: unexpected argument '{argument}' found\n\n{hint}Usage: {usage}\n"
  | repeated argument usage =>
    s!"error: the argument '{argument}' cannot be used multiple times\n\nUsage: {usage}\n"
  | unwantedValue value argument usage =>
    s!"error: unexpected value '{value}' for '{argument}' found; no more were expected\n\nUsage: {usage}\n"
  | missingValue argument =>
    s!"error: a value is required for '{argument}' but none was supplied\n"
  | notText usage =>
    s!"error: invalid UTF-8 was detected in one or more arguments\n\nUsage: {usage}\n"

end CompilerDriver.CommandLine
