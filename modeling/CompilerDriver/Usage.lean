import CompilerDriver.CommandOption
/-!
Usage trees: what a provider says about its own command line.

A usage has a summary, perhaps a description, options, and groups that are usages again. The whole command
line is one such tree. `flattened_eq_flatMap` reads the flattened options off the list of all nodes.
-/
namespace CompilerDriver

/-- A summary with options, in nested groups. -/
structure Usage where
  summary : String
  description : Option String := none
  options : List CommandOption := []
  groups : List Usage := []
deriving Inhabited

namespace Usage

/-- A usage with nothing but a summary. -/
def ofSummary (summary : String) : Usage := { summary }

/-- Puts the option after the others. -/
def withOption (u : Usage) (o : CommandOption) : Usage := { u with options := u.options ++ [o] }

/-- Puts the group after the others. -/
def withGroup (u g : Usage) : Usage := { u with groups := u.groups ++ [g] }

mutual

/-- All options of a usage: its own, then those of its groups, depth first. -/
def flattened : Usage → List CommandOption
  | ⟨_, _, options, groups⟩ => options ++ flattenedAll groups

/-- All options of several usages, one after the other. -/
def flattenedAll : List Usage → List CommandOption
  | [] => []
  | g :: gs => flattened g ++ flattenedAll gs

end

mutual

/-- The usage and all groups below it, depth first. -/
def nodes : Usage → List Usage
  | u@⟨_, _, _, groups⟩ => u :: nodesAll groups

/-- The nodes of several usages, one after the other. -/
def nodesAll : List Usage → List Usage
  | [] => []
  | g :: gs => nodes g ++ nodesAll gs

end

mutual

/-- Flattening collects the options of every node, in order. -/
theorem flattened_eq_flatMap : ∀ u : Usage, u.flattened = u.nodes.flatMap (·.options)
  | ⟨_, _, _, groups⟩ => by
    rw [flattened, nodes, flattenedAll_eq_flatMap_nodes groups, List.flatMap_cons]

theorem flattenedAll_eq_flatMap_nodes : ∀ gs : List Usage,
    flattenedAll gs = (nodesAll gs).flatMap (·.options)
  | [] => by rw [flattenedAll, nodesAll]; rfl
  | g :: gs => by
    rw [flattenedAll, nodesAll, List.flatMap_append, flattened_eq_flatMap g,
      flattenedAll_eq_flatMap_nodes gs]

end

end Usage
end CompilerDriver
