import CompilerDriver.Globals
import CompilerDriver.Keyed
/-!
What a provider is given: the part of the command line that is meant for it.

An invocation is built step by step and remembers exactly what was recorded; `values_withValues` and
`hasOption_withValues` say so for one step.
-/
namespace CompilerDriver

/-- The command line as a provider sees it. The name that selected the provider is not among `args`. -/
structure Invocation where
  provider : String
  globals : Globals := {}
  /-- The options that were present with their values, none for a switch. -/
  options : Keyed (List String) := .empty
  /-- The residual arguments. -/
  args : List String := []
deriving DecidableEq, Inhabited

namespace Invocation

/-- Records `values` for an option, after those recorded before. No values still record presence. -/
def withValues (i : Invocation) (name : String) (values : List String) : Invocation :=
  { i with options := i.options.alter name fun old => old.getD [] ++ values }

/-- Records that a switch is present. -/
def withSwitch (i : Invocation) (name : String) : Invocation := i.withValues name []

/-- Sets the residual arguments. -/
def withArgs (i : Invocation) (args : List String) : Invocation := { i with args }

/-- The option was present. -/
def hasOption (i : Invocation) (name : String) : Bool := i.options.contains name

/-- The values of an option, none if it was absent. -/
def values (i : Invocation) (name : String) : List String := (i.options.get? name).getD []

/-- The last value of an option. -/
def value? (i : Invocation) (name : String) : Option String := (i.values name).getLast?

theorem values_withValues (i : Invocation) (name other : String) (vs : List String) :
    (i.withValues name vs).values other =
      if name = other then i.values other ++ vs else i.values other := by
  simp only [values, withValues, Keyed.get?_alter]
  split
  · next h => subst h; rfl
  · rfl

theorem hasOption_withValues (i : Invocation) (name other : String) (vs : List String) :
    (i.withValues name vs).hasOption other = (name == other || i.hasOption other) := by
  simp only [hasOption, withValues, Keyed.contains, Keyed.get?_alter]
  by_cases h : name = other <;> simp [h]

/-- Records options in turn, each with its values. -/
def withOptions (i : Invocation) (es : List (String × List String)) : Invocation :=
  es.foldl (fun i e => i.withValues e.1 e.2) i

theorem options_withOptions {i : Invocation} {es : List (String × List String)}
    (h : (es.map Prod.fst).Nodup) (k : String) : (i.withOptions es).options.get? k =
      match Keyed.find? k es with
      | some vs => some ((i.options.get? k).getD [] ++ vs)
      | none => i.options.get? k := by
  induction es generalizing i with
  | nil => rfl
  | cons e es ih =>
    simp only [List.map_cons, List.nodup_cons] at h
    have hr := ih h.2 (i := i.withValues e.1 e.2)
    simp only [withOptions, List.foldl_cons, Keyed.find?] at hr ⊢
    rw [hr]
    by_cases hk : e.1 = k
    · subst hk
      simp [Keyed.find?_eq_none h.1, withValues, Keyed.get?_alter]
    · simp [hk, withValues, Keyed.get?_alter]

theorem provider_withOptions (i : Invocation) (es : List (String × List String)) :
    (i.withOptions es).provider = i.provider := by
  induction es generalizing i with
  | nil => rfl
  | cons e es ih => exact ih (i.withValues e.1 e.2)

theorem globals_withOptions (i : Invocation) (es : List (String × List String)) :
    (i.withOptions es).globals = i.globals := by
  induction es generalizing i with
  | nil => rfl
  | cons e es ih => exact ih (i.withValues e.1 e.2)

end Invocation
end CompilerDriver
