import CompilerDriver.CommandLine.Selection
/-!
What an invocation remembers of the steps that recorded it.

A step adds to what is recorded for its option, and setting the residual arguments replaces the ones before. So the
steps are told by what each option gets from them and by the last residual arguments; how the steps for different
options were mixed is forgotten.
-/
namespace CompilerDriver

open CommandLine

namespace Invocation

-- One step of recording.
inductive Step where
  | switch (name : String)
  | values (name : String) (values : List String)
  | args (args : List String)

namespace Step

-- The option that the step names, if it is about one.
def name? : Step → Option String
  | switch name | values name _ => some name
  | args _ => none

-- What the step adds to the values of an option.
def valuesFor (name : String) : Step → List String
  | switch _ | args _ => []
  | values n vs => if n = name then vs else []

-- The residual arguments that the step sets, if it does.
def args? : Step → Option (List String)
  | switch _ | values _ _ => none
  | args as => some as

theorem valuesFor_eq_nil {s : Step} {n : String} (h : s.name? ≠ some n) : s.valuesFor n = [] := by
  cases s
  case values m vs =>
    have hm : m ≠ n := fun he => h (congrArg some he)
    rw [valuesFor, if_neg hm]
  all_goals rfl

theorem args?_eq_none {s : Step} {n : String} (h : s.name? = some n) : s.args? = none := by
  cases s
  case args => cases h
  all_goals rfl

end Step

def record (i : Invocation) : Step → Invocation
  | .switch name => i.withSwitch name
  | .values name vs => i.withValues name vs
  | .args args => i.withArgs args

def recordAll (i : Invocation) (log : List Step) : Invocation := log.foldl record i

section Record

variable (i : Invocation) (s : Step) (n : String)

theorem provider_record : (i.record s).provider = i.provider := by
  cases s <;> rfl

theorem globals_record : (i.record s).globals = i.globals := by
  cases s <;> rfl

theorem args_record : (i.record s).args = s.args?.getD i.args := by
  cases s <;> rfl

theorem values_record : (i.record s).values n = i.values n ++ s.valuesFor n := by
  cases s
  case switch m =>
    rw [record, withSwitch, values_withValues, Step.valuesFor]
    split <;> simp
  case values m vs =>
    rw [record, values_withValues, Step.valuesFor]
    split <;> simp
  case args => simp [record, withArgs, values, Step.valuesFor]

theorem hasOption_record : (i.record s).hasOption n = true ↔ s.name? = some n ∨ i.hasOption n = true := by
  cases s
  case args => simp [record, withArgs, hasOption, Step.name?]
  all_goals simp [record, withSwitch, hasOption_withValues, Step.name?]

end Record

section RecordAll

variable (i : Invocation) (log : List Step) (n : String)

theorem provider_recordAll : (i.recordAll log).provider = i.provider := by
  induction log generalizing i
  case nil => rfl
  case cons s log hi => exact (hi (i.record s)).trans (i.provider_record s)

theorem globals_recordAll : (i.recordAll log).globals = i.globals := by
  induction log generalizing i
  case nil => rfl
  case cons s log hi => exact (hi (i.record s)).trans (i.globals_record s)

theorem values_recordAll : (i.recordAll log).values n = i.values n ++ log.flatMap (Step.valuesFor n) := by
  induction log generalizing i
  case nil => simp [recordAll]
  case cons s log hi =>
    have h := hi (i.record s)
    rw [values_record, List.append_assoc] at h
    exact h

theorem hasOption_recordAll :
    (i.recordAll log).hasOption n = true ↔ (∃ s ∈ log, s.name? = some n) ∨ i.hasOption n = true := by
  induction log generalizing i
  case nil => simp [recordAll]
  case cons s log hi =>
    refine (hi (i.record s)).trans ?_
    simp [hasOption_record, or_assoc, or_left_comm]

theorem args_recordAll : (i.recordAll log).args = (log.filterMap Step.args?).getLast?.getD i.args := by
  induction log generalizing i
  case nil => rfl
  case cons s log hi =>
    refine (hi (i.record s)).trans ?_
    rw [args_record, List.filterMap_cons]
    cases s.args? <;> simp [List.getLast?_cons]

end RecordAll

section Told

variable (i j : Invocation)

theorem get?_options (n : String) : i.options.get? n = if i.hasOption n then some (i.values n) else none := by
  rw [hasOption, Keyed.contains, values]
  cases i.options.get? n <;> rfl

-- An invocation is told by what can be asked of it.
theorem ext_values (hp : i.provider = j.provider) (hg : i.globals = j.globals)
    (ho : ∀ n, i.hasOption n = true ↔ j.hasOption n = true) (hv : ∀ n, i.values n = j.values n)
    (ha : i.args = j.args) : i = j := by
  have hoptions : i.options = j.options := Keyed.ext_get? fun n => by
    rw [get?_options, get?_options, Bool.eq_iff_iff.mpr (ho n), hv]
  cases i
  cases j
  congr

theorem entries_options : i.options.entries = i.options.keys.map fun n => (n, i.values n) := by
  rw [Keyed.keys, List.map_map]
  refine (List.map_id' _).symm.trans (List.map_congr_left fun e he => ?_)
  have hfind := Keyed.find?_of_mem i.options.nodup_keys he
  simp [values, Keyed.get?, hfind]

end Told

-- The two logs name the same options, give each of them the same values, and end with the same residual arguments.
structure Agree (log log' : List Step) : Prop where
  names : ∀ n, (∃ s ∈ log, s.name? = some n) ↔ ∃ s ∈ log', s.name? = some n
  values : ∀ n, log.flatMap (Step.valuesFor n) = log'.flatMap (Step.valuesFor n)
  args : (log.filterMap Step.args?).getLast?.getD [] = (log'.filterMap Step.args?).getLast?.getD []

namespace Agree

variable {log log' before after : List Step} {s t : Step}

-- Two steps for different names can be made in either order.
theorem of_swap (h : s.name? ≠ t.name?) : Agree (before ++ s :: t :: after) (before ++ t :: s :: after) := by
  constructor
  case names =>
    intro n
    have hperm : (before ++ s :: t :: after).Perm (before ++ t :: s :: after) :=
      (List.Perm.swap t s after).append_left before
    exact exists_congr fun _ => and_congr_left' hperm.mem_iff
  case values =>
    intro n
    simp only [List.flatMap_append, List.flatMap_cons]
    by_cases hs : s.name? = some n
    case pos => simp [Step.valuesFor_eq_nil (hs ▸ h.symm)]
    case neg => simp [Step.valuesFor_eq_nil hs]
  case args =>
    simp only [List.filterMap_append, List.filterMap_cons]
    cases hs : s.name?
    case some => simp [Step.args?_eq_none hs]
    case none =>
      have ⟨_, ht⟩ := Option.ne_none_iff_exists'.mp fun ht => h (hs.trans ht.symm)
      simp [Step.args?_eq_none ht]

end Agree

section New

variable (provider : String) (globals : Globals) (log log' : List Step) (n : String)

theorem values_new : (recordAll { provider, globals } log).values n = log.flatMap (Step.valuesFor n) :=
  values_recordAll ..

theorem hasOption_new :
    (recordAll { provider, globals } log).hasOption n = true ↔ ∃ s ∈ log, s.name? = some n := by
  rw [hasOption_recordAll]
  exact or_iff_left nofun

theorem args_new : (recordAll { provider, globals } log).args = (log.filterMap Step.args?).getLast?.getD [] :=
  args_recordAll ..

variable {log log'} in
-- Nothing but what the logs agree on is told by an invocation.
theorem recordAll_eq_iff :
    recordAll { provider, globals } log = recordAll { provider, globals } log' ↔ Agree log log' := by
  constructor
  case mp =>
    intro h
    refine ⟨fun n => ?_, fun n => ?_, ?_⟩
    · rw [← hasOption_new provider globals, h, hasOption_new]
    · rw [← values_new provider globals, h, values_new]
    · rw [← args_new provider globals, h, args_new]
  case mpr =>
    intro h
    refine ext_values _ _ ?_ ?_ (fun n => ?_) (fun n => ?_) ?_
    · rw [provider_recordAll, provider_recordAll]
    · rw [globals_recordAll, globals_recordAll]
    · rw [hasOption_new, hasOption_new, h.names]
    · rw [values_new, values_new, h.values]
    · rw [args_new, args_new, h.args]

end New

-- What can be relied on when a new invocation was recorded step by step: the answers to all that it can be asked, and
-- that nothing else of the steps is left in it.
structure Remembers (name : String) (g : Globals) (log : List Step) (i : Invocation) : Prop where
  provider : i.provider = name
  globals : i.globals = g
  values : ∀ n, i.values n = log.flatMap (Step.valuesFor n)
  hasOption : ∀ n, i.hasOption n = true ↔ ∃ s ∈ log, s.name? = some n
  last : ∀ n, i.value? n = (log.flatMap (Step.valuesFor n)).getLast?
  args : i.args = (log.filterMap Step.args?).getLast?.getD []
  names : ∀ n, n ∈ i.options.keys ↔ ∃ s ∈ log, s.name? = some n
  ascending : i.options.keys.Pairwise (· < ·)
  listed : i.options.entries = i.options.keys.map fun n => (n, i.values n)
  swapped : ∀ before s t after, log = before ++ s :: t :: after → s.name? ≠ t.name? →
    recordAll { provider := name, globals := g } (before ++ t :: s :: after) = i
  told : ∀ log', recordAll { provider := name, globals := g } log' = i ↔ Agree log' log

theorem recordAll_remembers (name : String) (g : Globals) (log : List Step) :
    Remembers name g log (recordAll { provider := name, globals := g } log) ∧
    ∀ s : Selection, (s.toInvocation name).provider = name ∧ (s.toInvocation name).globals = s.globals ∧
      (s.toInvocation name).options = s.options ∧ (s.toInvocation name).args = s.args := by
  refine ⟨?_, fun s => ?_⟩
  case refine_2 =>
    rw [s.toInvocation_eq]
    exact ⟨rfl, rfl, rfl, rfl⟩
  constructor
  case provider => exact provider_recordAll ..
  case globals => exact globals_recordAll ..
  case values => exact values_new name g log
  case hasOption => exact hasOption_new name g log
  case last => exact fun n => congrArg List.getLast? (values_new name g log n)
  case args => exact args_new name g log
  case names => exact fun n => (Keyed.mem_keys_iff ..).trans (hasOption_new name g log n)
  case ascending => exact Keyed.ascending _
  case listed => exact entries_options _
  case swapped =>
    rintro before s t after rfl h
    exact (recordAll_eq_iff name g).mpr (.of_swap h.symm)
  case told => exact fun _ => recordAll_eq_iff name g

-- Values come together from both sides of another option's step, a switch may also be given values, and an empty list
-- of values still records the option.
example :
    let i := recordAll { provider := "sim" } [.values "depth" ["2"], .switch "vcd", .args ["a"],
      .values "depth" ["3", "4"], .values "vcd" ["x"], .values "empty" [], .args ["top"]]
    i.options.entries = [("depth", ["2", "3", "4"]), ("empty", []), ("vcd", ["x"])] ∧ i.args = ["top"] := by
  decide

end Invocation
end CompilerDriver
