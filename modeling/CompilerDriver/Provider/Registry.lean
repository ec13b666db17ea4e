import CompilerDriver.Provider.Basic
import CompilerDriver.Text.Quoted
/-!
The registered providers: one for each name, in the order in which the names first came.

`lookup_register` and `names_register` say what one registration changes.
-/
namespace CompilerDriver

/-- Providers under distinct names. -/
structure Registry where
  providers : List Provider
  distinct : (providers.map (·.name)).Nodup

namespace Registry

/-- Nothing is registered. -/
def empty : Registry := ⟨[], .nil⟩

instance : Inhabited Registry := ⟨empty⟩

/-- The names in the order of their first registration. -/
def names (r : Registry) : List String := r.providers.map (·.name)

/-- Puts `p` in the place of its namesake, or else at the end. -/
def place (p : Provider) : List Provider → List Provider
  | [] => [p]
  | q :: qs => if q.name = p.name then p :: qs else q :: place p qs

theorem names_place (p : Provider) (qs : List Provider) :
    (place p qs).map (·.name) =
      if p.name ∈ qs.map (·.name) then qs.map (·.name) else qs.map (·.name) ++ [p.name] := by
  induction qs with
  | nil => simp [place]
  | cons q qs ih =>
    simp only [place]
    by_cases h : q.name = p.name
    · simp [h]
    · have h' : p.name ≠ q.name := Ne.symm h
      simp only [if_neg h, List.map_cons, ih, List.mem_cons, h', false_or]
      split <;> simp

/-- Registers a provider under its own name. A later one replaces its namesake and keeps its place. -/
def register (r : Registry) (p : Provider) : Registry where
  providers := place p r.providers
  distinct := by
    rw [names_place]
    split
    · exact r.distinct
    · next h => exact List.nodup_append.2 ⟨r.distinct, by simp, by grind⟩

/-- Registers the providers in turn. -/
def ofProviders (ps : List Provider) : Registry := ps.foldl register empty

/-- The provider of exactly this name. -/
def lookup (r : Registry) (name : String) : Option Provider :=
  r.providers.find? (·.name = name)

/-- The number of registered names. -/
def size (r : Registry) : Nat := r.providers.length

/-- The names of `ps` that come again after they came before, as often as they do. -/
def repeated (ps : List Provider) : List String :=
  go [] ps
where
  go (seen : List String) : List Provider → List String
    | [] => []
    | p :: ps => if p.name ∈ seen then p.name :: go seen ps else go (p.name :: seen) ps

/-- What registering the providers in turn puts into the log. -/
def registrationEvents (ps : List Provider) : List Event :=
  (repeated ps).map fun name => .log .debug s!"Provider '{name}' registered twice, keeping the latest"

/-- A one-line description for diagnostics. -/
def describe (r : Registry) : String :=
  "ProviderRegistry \x7b providers: " ++ Text.Quoted.encodeList r.names ++ " \x7d"

theorem names_register (r : Registry) (p : Provider) :
    (r.register p).names = if p.name ∈ r.names then r.names else r.names ++ [p.name] :=
  names_place p r.providers

theorem lookup_register (r : Registry) (p : Provider) (name : String) :
    (r.register p).lookup name = if p.name = name then some p else r.lookup name := by
  have go : ∀ qs : List Provider,
      (place p qs).find? (·.name = name) =
        if p.name = name then some p else qs.find? (·.name = name) := by
    intro qs
    induction qs with
    | nil => by_cases h : p.name = name <;> simp [place, h]
    | cons q qs ih =>
      simp only [place]
      by_cases hq : q.name = p.name
      · by_cases h : p.name = name <;> simp [hq, h]
      · rw [if_neg hq, List.find?_cons, List.find?_cons, ih]
        by_cases h : p.name = name
        · have : q.name ≠ name := fun e => hq (e.trans h.symm)
          simp [h, this]
        · simp [h]
  exact go r.providers

end Registry
end CompilerDriver
