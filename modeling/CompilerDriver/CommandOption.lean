import CompilerDriver.Text.Blank
/-!
A command-line option of a provider, or of the driver itself.

An option without a value name is a switch; any other takes a value. `check` says whether an option can
stand on the command line at all, and `signature` is how help shows it.
-/
namespace CompilerDriver

/-- One option, given as `--name` or by its short alias. -/
structure CommandOption where
  name : String
  short : Option Char := none
  help : String := ""
  /-- Placeholder of the value; an option without one is a switch. -/
  valueName : Option String := none
  /-- The option may be given more than once. -/
  multiple : Bool := false
deriving DecidableEq, Inhabited

namespace CommandOption

/-- No option may have this name: it stands for the residual arguments. -/
def reservedName : String := "__args"

/-- An option that is present or absent. -/
def switch (name help : String) : CommandOption := { name, help }

/-- An option that takes one value. -/
def value (name valueName help : String) : CommandOption := { name, help, valueName := some valueName }

/-- The option takes a value. -/
def takesValue (o : CommandOption) : Bool := o.valueName.isSome

/-- Why an option cannot stand on the command line. -/
inductive Defect where
  | unnamed
  | notLong (name : String)
  | reserved (name : String)
  | badShort (name : String) (short : Char)
deriving DecidableEq

/-- The diagnostic for a defect. -/
def Defect.message : Defect → String
  | unnamed => "option without a name"
  | notLong name => s!"option name '{name}' is not a valid long option"
  | reserved name => s!"option name '{name}' is reserved"
  | badShort name short => s!"option --{name} has an invalid short alias '{short}'"

/-- A name that can follow `--` and be told apart from its value and its neighbours. -/
def isLongName (name : String) : Bool :=
  !(name.toList.head? == some '-') && !name.toList.contains '=' && !Text.anyBlank name

/-- A character that can follow `-`. -/
def isShort (c : Char) : Bool :=
  c != '-' && !Text.isBlank c

/-- The first defect of an option, if it has any. -/
def defect? (o : CommandOption) : Option Defect :=
  if o.name = "" then some .unnamed
  else if !isLongName o.name then some (.notLong o.name)
  else if o.name = reservedName then some (.reserved o.name)
  else match o.short with
    | some c => if isShort c then none else some (.badShort o.name c)
    | none => none

/-- The option on the left of its help line. -/
def signature (o : CommandOption) : String :=
  let names := match o.short with
    | some c => s!"-{c}, --{o.name}"
    | none => s!"    --{o.name}"
  let value := match o.valueName with
    | some v => s!" <{v}>"
    | none => ""
  names ++ value ++ if o.multiple then "..." else ""

/-- How usage messages name an option. A repeated value is not marked, a repeated switch is. -/
def argument (o : CommandOption) : String :=
  match o.valueName with
  | some v => s!"--{o.name} <{v}>"
  | none => if o.multiple then s!"--{o.name}..." else s!"--{o.name}"

/-- An option has no defect exactly when its name and its alias can be written on a command line. -/
theorem defect?_eq_none_iff (o : CommandOption) :
    o.defect? = none ↔ o.name ≠ "" ∧ isLongName o.name = true ∧ o.name ≠ reservedName ∧
      ∀ c, o.short = some c → isShort c = true := by
  unfold defect?
  cases hs : o.short with
  | none => grind
  | some c => grind

end CommandOption
end CompilerDriver
