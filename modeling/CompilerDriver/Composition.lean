import CompilerDriver.Provider.Registry
/-!
The composed command line: the driver's switches and, for each registered provider, the options that can be
accepted after its name.

Within one provider an option is dropped if it has a defect or if its name is taken, and a short alias is
cleared if it is taken. Names and aliases are taken depth first, so a group sees what came before it.
`flattened_prune` says that doing this on the tree or on the flattened list comes to the same.
-/
namespace CompilerDriver

/-- Names and short aliases that are in use. -/
structure Taken where
  names : List String
  shorts : List Char
deriving DecidableEq

namespace Taken

/-- Before a provider's first option, the driver's own switches have their names. -/
def initial : Taken := ⟨Globals.names, []⟩

/-- What is in use once `o` is accepted. -/
def add (t : Taken) (o : CommandOption) : Taken :=
  ⟨o.name :: t.names, o.short.toList ++ t.shorts⟩

end Taken

namespace Composition

/-- Why an option is not accepted as it was declared. -/
inductive Warning where
  | defective (provider : String) (defect : CommandOption.Defect)
  | nameTaken (provider name : String)
  | shortTaken (provider : String) (short : Char)
deriving DecidableEq

/-- The log line for a warning. -/
def Warning.message : Warning → String
  | defective p d => s!"Provider '{p}': {d.message}, ignoring"
  | nameTaken p n => s!"Provider '{p}': option --{n} is already defined, ignoring"
  | shortTaken p c => s!"Provider '{p}': short option -{c} is already defined"

/-- A warning in the log. -/
def Warning.event (w : Warning) : Event := .log .warn w.message

/-- A part of a usage tree that has been gone through: what is kept of it, and what it changed. -/
structure Pruned (α : Type) where
  kept : α
  taken : Taken
  warnings : List Warning

/-- Decides on one option: accepted as it is, accepted without its alias, or dropped. -/
def accept (provider : String) (t : Taken) (o : CommandOption) : Pruned (Option CommandOption) :=
  match o.defect? with
  | some d => ⟨none, t, [.defective provider d]⟩
  | none =>
    if o.name ∈ t.names then ⟨none, t, [.nameTaken provider o.name]⟩
    else match o.short with
    | none => ⟨some o, t.add o, []⟩
    | some c =>
      if c ∈ t.shorts then
        ⟨some { o with short := none }, t.add { o with short := none }, [.shortTaken provider c]⟩
      else ⟨some o, t.add o, []⟩

/-- Goes through a list of options. -/
def pruneOptions (provider : String) : Taken → List CommandOption → Pruned (List CommandOption)
  | t, [] => ⟨[], t, []⟩
  | t, o :: os =>
    let first := accept provider t o
    let rest := pruneOptions provider first.taken os
    ⟨first.kept.toList ++ rest.kept, rest.taken, first.warnings ++ rest.warnings⟩

mutual

/-- Goes through a usage: its own options, then its groups. The shape of the tree stays. -/
def prune (provider : String) : Taken → Usage → Pruned Usage
  | t, ⟨summary, description, options, groups⟩ =>
    let own := pruneOptions provider t options
    let below := pruneAll provider own.taken groups
    ⟨⟨summary, description, own.kept, below.kept⟩, below.taken, own.warnings ++ below.warnings⟩

/-- Goes through several usages, one after the other. -/
def pruneAll (provider : String) : Taken → List Usage → Pruned (List Usage)
  | t, [] => ⟨[], t, []⟩
  | t, g :: gs =>
    let first := prune provider t g
    let rest := pruneAll provider first.taken gs
    ⟨first.kept :: rest.kept, rest.taken, first.warnings ++ rest.warnings⟩

end

/-- What the command line accepts of a provider's usage. -/
def accepted (provider : String) (u : Usage) : Pruned Usage := prune provider .initial u

theorem pruneOptions_append (provider : String) (t : Taken) (xs ys : List CommandOption) :
    pruneOptions provider t (xs ++ ys) =
      let first := pruneOptions provider t xs
      let rest := pruneOptions provider first.taken ys
      ⟨first.kept ++ rest.kept, rest.taken, first.warnings ++ rest.warnings⟩ := by
  induction xs generalizing t with
  | nil => simp [pruneOptions]
  | cons x xs ih => simp [pruneOptions, ih]

mutual

/-- Going through a tree decides as going through its flattened options does. -/
theorem flattened_prune (provider : String) : ∀ (t : Taken) (u : Usage),
    pruneOptions provider t u.flattened =
      ⟨(prune provider t u).kept.flattened, (prune provider t u).taken, (prune provider t u).warnings⟩
  | t, ⟨_, _, options, groups⟩ => by
    simp only [Usage.flattened, pruneOptions_append, prune,
      flattenedAll_prune provider (pruneOptions provider t options).taken groups]

theorem flattenedAll_prune (provider : String) : ∀ (t : Taken) (gs : List Usage),
    pruneOptions provider t (Usage.flattenedAll gs) =
      ⟨Usage.flattenedAll (pruneAll provider t gs).kept, (pruneAll provider t gs).taken,
        (pruneAll provider t gs).warnings⟩
  | t, [] => by simp [Usage.flattenedAll, pruneAll, pruneOptions]
  | t, g :: gs => by
    simp only [Usage.flattenedAll, pruneOptions_append, pruneAll, flattened_prune provider t g,
      flattenedAll_prune provider (prune provider t g).taken gs]

end

/-- A provider on the composed command line. -/
structure Entry where
  name : String
  /-- The provider's usage, less what the command line cannot accept. -/
  usage : Usage
deriving Inhabited

/-- The options that are accepted after the provider's name, in order. -/
def Entry.options (e : Entry) : List CommandOption := e.usage.flattened

/-- The entry of a provider. -/
def entryOf (p : Provider) : Entry := ⟨p.name, (accepted p.name p.usage).kept⟩

end Composition

/-- The driver's switches and an entry for every provider. -/
structure Composition where
  entries : List Composition.Entry
deriving Inhabited

namespace Composition

/-- Composes the registered providers, in their order. -/
def ofRegistry (r : Registry) : Composition := ⟨r.providers.map entryOf⟩

/-- What composing puts into the log. -/
def warnings (r : Registry) : List Warning :=
  r.providers.flatMap fun p => (accepted p.name p.usage).warnings

/-- The name at the head of the usage line. -/
def rootName : String := "Compiler"

/-- The names of the entries. -/
def names (c : Composition) : List String := c.entries.map (·.name)

/-- The whole command line in one line. -/
def usageLine (c : Composition) : String :=
  s!"{rootName} [OPTIONS] <" ++ "|".intercalate c.names ++ "> [PROVIDER_OPTIONS]"

/-- The whole command line as one usage: the driver's switches, and a group for each provider. -/
def root (c : Composition) : Usage where
  summary := c.usageLine
  options := Globals.options
  groups := c.entries.map (·.usage)

/-- The entry of exactly this name. -/
def entry? (c : Composition) (name : String) : Option Entry := c.entries.find? (·.name = name)

@[simp] theorem names_ofRegistry (r : Registry) : (ofRegistry r).names = r.names := by
  simp [ofRegistry, names, Registry.names, entryOf, Function.comp_def]

end Composition
end CompilerDriver
