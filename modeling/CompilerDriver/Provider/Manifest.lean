import CompilerDriver.File.Path
import CompilerDriver.Provider.Basic
/-!
Manifests: descriptions of providers that are programs of their own.

A manifest gives a provider its name, usage and command. The command gets the options that were present and the
residual arguments as its own arguments, each option in one form whatever form the user wrote.
-/
namespace CompilerDriver

/-- The description of a provider that is a program. -/
structure Manifest where
  name : String
  /-- The summary of its usage, if not the usual one. -/
  usage : Option String := none
  description : Option String := none
  /-- The program. -/
  command : String
  /-- Arguments that come before those of the user. -/
  args : List String := []
  /-- Variables that are set for the program. -/
  env : Keyed String := .empty
  options : List CommandOption := []
  groups : List Usage := []
  /-- The directory of the file that the manifest was read from. -/
  baseDir : Option String := none
deriving Inhabited

namespace Manifest

/-- The usage that the manifest describes. -/
def toUsage (m : Manifest) : Usage where
  summary := m.usage.getD s!"{m.name} [OPTIONS] [ARGS...]"
  description := m.description
  options := m.options
  groups := m.groups

/-- Why a manifest does not describe a provider. -/
inductive Defect where
  | unnamed
  | notToken (name : String)
  | noCommand (name : String)
  | badOption (name : String) (defect : CommandOption.Defect)
deriving DecidableEq

/-- The diagnostic for a defect. -/
def Defect.message : Defect → String
  | unnamed => "provider name is empty"
  | notToken name => s!"provider name '{name}' is not a valid command token"
  | noCommand name => s!"provider '{name}' has no command"
  | badOption name d => s!"provider '{name}': {d.message}"

/-- A name that can stand on the command line and is not taken for an option. -/
def isToken (name : String) : Bool :=
  !(name.toList.head? == some '-') && !Text.anyBlank name

/-- The first defect of a manifest, if it has any. -/
def defect? (m : Manifest) : Option Defect :=
  if m.name = "" then some .unnamed
  else if !isToken m.name then some (.notToken m.name)
  else if Text.allBlank m.command then some (.noCommand m.name)
  else (m.toUsage.flattened.findSome? CommandOption.defect?).map (.badOption m.name)

/-- The program to run. A relative command with several parts is taken from the manifest's directory; one of a
single part is looked up as any command. -/
def program (m : Manifest) : String :=
  match m.baseDir with
  | some base =>
    if !File.Path.isAbsolute m.command && File.Path.partCount m.command > 1 then
      File.Path.join base m.command
    else m.command
  | none => m.command

/-- One option as an argument of the program, once for each of its values. -/
def optionArgs (i : Invocation) (o : CommandOption) : List String :=
  if !i.hasOption o.name then []
  else if o.takesValue then (i.values o.name).map fun v => s!"--{o.name}={v}"
  else [s!"--{o.name}"]

/-- The arguments of the program: the fixed ones, the options that are present in the order of their
declaration, the residual ones. -/
def commandArgs (m : Manifest) (i : Invocation) : List String :=
  m.args ++ m.toUsage.flattened.flatMap (optionArgs i) ++ i.args

/-- A manifest has no defect exactly when its name is a token, it has a command, and no option that it
declares anywhere has a defect. -/
theorem defect?_eq_none_iff (m : Manifest) :
    m.defect? = none ↔ m.name ≠ "" ∧ isToken m.name = true ∧ Text.allBlank m.command = false ∧
      ∀ o ∈ m.toUsage.flattened, o.defect? = none := by
  unfold defect?
  by_cases h1 : m.name = ""
  · simp [h1]
  by_cases h2 : isToken m.name
  · by_cases h3 : Text.allBlank m.command <;> simp [h1, h2, h3]
  · simp [h1, h2]

end Manifest
end CompilerDriver
