import CompilerDriver.Proofs.CommandLine.Determined
import CompilerDriver.Proofs.Forwarding
/-!
Every selection can be asked for.

The switches of the driver come first, then the provider's name, then the options in any order, each value in one
token with its option. Behind `--` there is room for any residual arguments, so that no selection that fits its
provider is out of reach.
-/
namespace CompilerDriver

open CommandLine Command CompilerDriver.Composition

namespace CommandLine

variable {s : Selection} {p : Provider} {o : CommandOption} {os : List CommandOption} {n : String}

theorem Token.shape_dashes : (ofString "--").shape = .terminator := by
  decide

-- What one name yields does not depend on the order of options with distinct names.
theorem flatMap_eq_of_perm {α : Type} {f : CommandOption → List α} {os' : List CommandOption}
    (hn : (os.map (·.name)).Nodup) (h : os.Perm os') (hf : ∀ o, o.name ≠ n → f o = []) :
    os.flatMap f = os'.flatMap f := by
  by_cases ho : ∃ o ∈ os, o.name = n
  case pos =>
    obtain ⟨o, ho, rfl⟩ := ho
    have hn' : (os'.map (·.name)).Nodup := (h.map _).nodup_iff.mp hn
    rw [flatMap_eq_of_nodup hn ho hf, flatMap_eq_of_nodup hn' (h.mem_iff.mp ho) hf]
  case neg =>
    have hnil : ∀ o ∈ os, f o = [] := fun o hm => hf o fun he => ho ⟨o, hm, he⟩
    rw [List.flatMap_eq_nil_iff.mpr hnil, List.flatMap_eq_nil_iff.mpr fun o hm => hnil o (h.mem_iff.mpr hm)]

namespace Selection

-- What the options are used for in this order, and the residual arguments behind them.
def usesOf (s : Selection) (os : List CommandOption) : List Use :=
  os.flatMap s.uses ++ (s.args.map .ofString).map .residual

theorem tokensOf_uses_of_ne (h : o.name ≠ n) : Use.tokensOf n (s.uses o) = [] := by
  refine List.filterMap_eq_nil_iff.mpr fun u hu => ?_
  have ho := option?_of_mem_uses hu
  cases u
  case value o' t =>
    cases ho
    exact if_neg h
  all_goals rfl

theorem residualTokens_uses (s : Selection) (os : List CommandOption) :
    Use.residualTokens (os.flatMap s.uses) = [] := by
  refine List.filterMap_eq_nil_iff.mpr fun u hu => ?_
  have ⟨o, _, hu⟩ := List.mem_flatMap.mp hu
  have ho := option?_of_mem_uses hu
  cases u
  case residual => cases ho
  all_goals rfl

theorem names_usesOf_perm (hos : os.Perm (entryOf p).options) :
    (Use.names (s.usesOf os)).Perm (Use.names (s.allUses (entryOf p))) := by
  simp only [usesOf, allUses, Use.names_append, Use.names_residual, List.append_nil]
  exact (hos.flatMap_right _).filterMap _

-- The order of the options does not matter.
theorem same_of_perm (hos : os.Perm (entryOf p).options) : Use.Same (s.usesOf os) (s.allUses (entryOf p)) where
  residual := by
    simp only [usesOf, allUses, Use.residualTokens, List.filterMap_append]
    exact congrArg (· ++ _) ((residualTokens_uses s os).trans (residualTokens_uses s _).symm)
  tokens := by
    intro n
    have hn : (os.map (·.name)).Nodup := (hos.map _).nodup_iff.mpr (options_entryOf p ▸ nodup_kept)
    simp only [usesOf, allUses, Use.tokensOf, List.filterMap_append, List.filterMap_flatMap]
    exact congrArg (· ++ _) (flatMap_eq_of_perm hn hos fun o => tokensOf_uses_of_ne)
  count := fun n _ => (names_usesOf_perm hos).count_eq n

-- The command line that asks for the selection: the switches `ws`, the provider of `e`, its options in the
-- order of `os`, and behind `--` the residual arguments.
def request (s : Selection) (ws : List Globals.Switch) (e : Entry) (os : List CommandOption) : List Token :=
  ws.map .ofSwitch ++ .ofString e.name :: ((os.flatMap s.optionTexts).map .ofString ++
    .ofString "--" :: s.args.map .ofString)

theorem spells_request (hos : os.Perm (entryOf p).options) : Spells (ofEntry (entryOf p)) none
    ((os.flatMap s.optionTexts).map .ofString ++ .ofString "--" :: s.args.map .ofString) (s.usesOf os) :=
  spells_options (fun _ => hos.mem_iff.mp) (.escape Token.shape_dashes)

section Fits

variable (hf : s.Fits (entryOf p)) (hos : os.Perm (entryOf p).options)
include hf hos

-- The options of a provider set no switch of the driver.
theorem not_mem_names_usesOf (hn : n ∈ Globals.names) : n ∉ Use.names (s.usesOf os) := by
  rw [(names_usesOf_perm hos).mem_iff, mem_names_allUses hf, hf.get?_of_global hn]
  exact Bool.false_ne_true

theorem legal_usesOf : Legal (s.usesOf os) := by
  have hlegal : Legal (s.allUses (entryOf p)) := (legal_uses hf).append_ofString s.args
  have hu := (spells_request (s := s) (.refl (entryOf p).options)).offers (by simp)
  have hv := (spells_request (s := s) hos).offers (by simp)
  refine legal_of_same (nodup_ofEntry p) hu hv (same_of_perm hos).symm (fun n hn => ?_) hlegal
  rw [List.count_eq_zero.mpr (not_mem_names_usesOf hf hos hn)]
  exact Nat.zero_le 1

-- What is asked for is what is selected.
theorem ofUses_usesOf (hs : s.provider = some p.name) : ofUses s.globals (entryOf p) (s.usesOf os) = s := by
  have hempty : ∀ {os' : List CommandOption}, os'.Perm (entryOf p).options →
      s.globals.or (.ofNames (Use.names (s.usesOf os'))) = s.globals := by
    intro os' hos'
    rw [Globals.ofNames_eq_empty fun n hn hg => not_mem_names_usesOf hf hos' hg hn, Globals.or_empty]
  have hall : s.globals.or (.ofNames (Use.names (s.allUses (entryOf p)))) = s.globals := hempty (.refl _)
  calc ofUses s.globals (entryOf p) (s.usesOf os)
    _ = ofUses s.globals (entryOf p) (s.allUses (entryOf p)) :=
      ofUses_of_same (same_of_perm hos) ((hempty hos).trans hall.symm)
    _ = { ofUses {} (entryOf p) (s.allUses (entryOf p)) with globals := s.globals } := by
      rw [ofUses, hall]
      rfl
    _ = s := by rw [ofUses_allUses hf, ← hs]

-- Every selection that fits its provider is what some command line asks for, whatever the values and the residual
-- arguments are.
theorem parse_request {r : Registry} {ws : List Globals.Switch}
    (hr : ∀ p ∈ r.providers, Manifest.isToken p.name = true) (hp : p ∈ r.providers)
    (hs : s.provider = some p.name) (hw : ws.Nodup) (hws : ∀ w, w ∈ ws ↔ s.globals.isSet w = true) :
    (ofRegistry r).parse (s.request ws (entryOf p) os) = .ok s := by
  have hn : (ws.map (·.name)).Nodup := hw.map Globals.Switch.name_injective
  have hg : Globals.ofNames (ws.map (·.name)) = s.globals := by
    refine Globals.ext_isSet fun w => ?_
    rw [Globals.isSet_ofNames, List.mem_map_of_injective Globals.Switch.name_injective, hws]
  rw [parse, request, name_entryOf, parseFrom_switches hr hp hn, List.nil_append,
    selectEntry_eq_ok_iff_legal (nodup_ofEntry p) (spells_request hos), hg, ofUses_usesOf hf hos hs]
  exact ⟨legal_usesOf hf hos, rfl⟩

end Fits

-- Neither `--` nor the name of a provider is out of reach as a residual argument.
theorem parse_request_of_dashes :
    let p : Provider := {
      name := "sim",
      usage := {
        summary := "sim [OPTIONS]"
        options := [{ name := "flat", short := some 'f' }, .value "out" "DIR" ""]
        groups := [{
          summary := "Macros"
          options := [{ name := "define", valueName := some "K", multiple := true }] }] }
      invoke := fun _ => { outcome := .success } }
    let r := Registry.ofProviders [p]
    let s : Selection := {
      globals := { version := true, nocheck := true }, provider := some "sim",
      options := .ofList [("define", ["a=b", "", "--flat"]), ("flat", [])], args := ["--", "-f", "", "sim", "--out"] }
    s.request [.nocheck, .version] (entryOf p) (entryOf p).options.reverse =
      ["--nocheck", "--version", "sim", "--define=a=b", "--define=", "--define=--flat", "--flat", "--",
        "--", "-f", "", "sim", "--out"].map .ofString ∧
    (ofRegistry r).parse (s.request [.nocheck, .version] (entryOf p) (entryOf p).options.reverse) = .ok s := by
  intro p r s
  have hs : (ofRegistry r).parse (["--nocheck", "sim", "--version", "-f", "--define", "a=b", "--define=",
      "--define=--flat", "--", "--", "-f", "", "sim", "--out"].map .ofString) = .ok s := by decide +zetaReduce
  have hf : s.Fits (entryOf p) := (parse_eq_ok_iff.mp hs).fits rfl rfl
  have hws : ∀ w, w ∈ [.nocheck, .version] ↔ s.globals.isSet w = true := by
    intro w
    cases w <;> decide +zetaReduce
  have hr : ∀ p ∈ r.providers, Manifest.isToken p.name = true := by decide +zetaReduce
  have hp : p ∈ r.providers := List.mem_singleton.mpr rfl
  exact ⟨by decide +zetaReduce, parse_request hf (List.reverse_perm _) hr hp rfl (by decide) hws⟩

end Selection
end CommandLine
end CompilerDriver
