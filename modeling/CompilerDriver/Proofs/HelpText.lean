import CompilerDriver.Help
/-!
The help text part by part.

After the part about the driver there is one block for each provider. A block goes through the groups of the
provider's usage, depth first: each has its heading, its description and a line for each of its own options.
-/
namespace CompilerDriver

namespace Usage

mutual

-- The usage and all groups below it, depth first, each with the number of groups around it.
def levels (k : Nat) : Usage → List (Nat × Usage)
  | u@⟨_, _, _, groups⟩ => (k, u) :: levelsAll (k + 1) groups

def levelsAll (k : Nat) : List Usage → List (Nat × Usage)
  | [] => []
  | g :: gs => levels k g ++ levelsAll k gs

end

mutual

theorem map_snd_levels (k : Nat) : ∀ u : Usage, (u.levels k).map Prod.snd = u.nodes
  | ⟨_, _, _, groups⟩ => by rw [levels, nodes, List.map_cons, map_snd_levelsAll (k + 1) groups]

theorem map_snd_levelsAll (k : Nat) : ∀ gs : List Usage, (levelsAll k gs).map Prod.snd = nodesAll gs
  | [] => by rw [levelsAll, nodesAll, List.map_nil]
  | g :: gs => by rw [levelsAll, nodesAll, List.map_append, map_snd_levels k g, map_snd_levelsAll k gs]

end

theorem flattened_eq_flatMap_levels (u : Usage) : u.flattened = (u.levels 0).flatMap (·.2.options) := by
  rw [flattened_eq_flatMap, ← map_snd_levels 0, List.flatMap_map]

end Usage

namespace Help

-- The line above a usage. Only the outermost one says what it is.
def headLine : Nat → String → String
  | 0, summary => indent 1 ++ "usage: " ++ summary
  | k + 1, summary => indent (k + 1) ++ summary ++ ":"

-- The lines for a usage without its groups.
def nodeLines (n : Nat × Usage) : List String :=
  headLine n.1 n.2.summary :: (descriptionLines (n.1 + 1) n.2.description ++ optionLines (n.1 + 1) n.2.options)

mutual

theorem cons_bodyLines (k : Nat) : ∀ u : Usage,
    headLine k u.summary :: bodyLines (k + 1) u = (u.levels k).flatMap nodeLines
  | ⟨_, _, _, groups⟩ => by
    rw [bodyLines, Usage.levels, List.flatMap_cons, ← groupLines_eq_flatMap k groups]
    rfl

theorem groupLines_eq_flatMap (k : Nat) : ∀ gs : List Usage,
    groupLines (k + 1) gs = (Usage.levelsAll (k + 1) gs).flatMap nodeLines
  | [] => by rw [groupLines, Usage.levelsAll, List.flatMap_nil]
  | g :: gs => by
    rw [groupLines, Usage.levelsAll, List.flatMap_append, ← cons_bodyLines (k + 1) g,
      ← groupLines_eq_flatMap k gs]
    rfl

end

theorem entryLines_eq (e : Composition.Entry) : entryLines e =
    ["", s!"Provider {e.name}:"] ++ (e.usage.levels 0).flatMap nodeLines := by
  rw [← cons_bodyLines]
  rfl

def entryText (e : Composition.Entry) : String :=
  String.join ((entryLines e).map (· ++ "\n"))

-- What help says before the first provider: the usage line and the switches of the driver.
def headText (c : Composition) : String :=
  String.join ((("usage: " ++ c.usageLine) :: optionLines 0 Globals.options).map (· ++ "\n"))

theorem text_eq (c : Composition) : text c = headText c ++ String.join (c.entries.map entryText) := by
  have go : ∀ es : List Composition.Entry, String.join ((es.flatMap entryLines).map (· ++ "\n")) =
      String.join (es.map entryText) := by
    intro es
    induction es
    case nil => rfl
    case cons e es hi =>
      rw [List.flatMap_cons, List.map_append, String.join_append, hi, List.map_cons]
      simp [entryText]
  rw [text, allLines, headText, ← go, List.map_append, String.join_append]

-- The block of each entry stands in it.
theorem exists_text_eq {c : Composition} {e : Composition.Entry} (he : e ∈ c.entries) :
    ∃ before after, text c = before ++ entryText e ++ after := by
  have ⟨es, es', hes⟩ := List.append_of_mem he
  refine ⟨headText c ++ String.join (es.map entryText), String.join (es'.map entryText), ?_⟩
  rw [text_eq, hes, List.map_append, String.join_append, List.map_cons]
  simp [String.append_assoc]

-- The blanks between a signature and a help text.
def gap (width : Nat) (o : CommandOption) : String :=
  if o.help = "" then "" else String.ofList (List.replicate (width - o.signature.length) ' ') ++ "  "

theorem not_mem_gap (width : Nat) (o : CommandOption) : '\n' ∉ (gap width o).toList := by
  unfold gap
  split
  all_goals simp

theorem optionLine_eq (depth width : Nat) (o : CommandOption) :
    optionLine depth width o = indent depth ++ o.signature ++ (gap width o ++ o.help) := by
  unfold optionLine gap
  split
  case isTrue hh => simp [hh]
  case isFalse => simp only [pad, String.append_assoc]

-- The line for an option is its signature behind the blanks, and then perhaps its help text.
theorem exists_optionLine_eq (depth width : Nat) (o : CommandOption) :
    ∃ rest, optionLine depth width o = String.ofList (List.replicate (2 * depth) ' ') ++ o.signature ++ rest :=
  ⟨gap width o ++ o.help, optionLine_eq depth width o⟩

end Help

-- Help shows the option with the alias `l`: the two names stand at the beginning of its signature.
def CommandOption.ShownWith (o : CommandOption) (l : Char) : Prop :=
  ∃ rest, o.signature = s!"-{l}, --{o.name}" ++ rest

theorem CommandOption.shownWith_iff {o : CommandOption} {l : Char} : o.ShownWith l ↔ o.short = some l := by
  constructor
  case mp =>
    intro ⟨rest, h⟩
    -- The second character is the alias, or a blank.
    have h := congrArg (·.toList.take 2) h
    cases hs : o.short
    case none => simp [signature, hs, toString] at h
    case some l' => simpa [signature, hs, toString] using h
  case mpr =>
    intro h
    exact ⟨_, by simp only [signature, h, String.append_assoc]; rfl⟩

end CompilerDriver
