import CompilerDriver.Proofs.CommandLine.Root
import CompilerDriver.Proofs.CommandLine.Spelling
import CompilerDriver.Provider.Invoke
/-!
What a program gets of the options that were given to its provider.

A provider's entry accepts each name once, at its first declaration. The program's arguments are made from all
declarations, so that a name that is declared again comes again.
-/
namespace CompilerDriver

open CommandLine CompilerDriver.Composition

theorem Manifest.optionArgs_toInvocation (s : Selection) (name : String) (o : CommandOption) :
    optionArgs (s.toInvocation name) o = s.optionTexts o := by
  simp only [optionArgs, s.toInvocation_eq, Invocation.hasOption, Invocation.values, Keyed.contains,
    Selection.optionTexts]
  cases s.options.get? o.name <;> rfl

-- What is selected of a registered provider fits its entry.
theorem Composition.Opens.fits {r : Registry} {p : Provider} {given : List String} {ts : List Token}
    {s : Selection} (h : Opens (ofRegistry r) given ts s) (hs : s.provider = some p.name)
    (hp : r.lookup p.name = some p) : s.Fits (entryOf p) := by
  cases h.selected hs hp
  case inl h =>
    have ⟨_, _, _, _, hsp, hl, he⟩ := h
    exact he ▸ Selection.fits_ofUses hsp hl
  case inr h => exact Selection.fits_of_empty h

-- The values that are selected are those behind the provider's name, in their order.
theorem Composition.Opens.ordered {r : Registry} {p : Provider} {given : List String} {ts : List Token}
    {s : Selection} (h : Opens (ofRegistry r) given ts s) (hs : s.provider = some p.name)
    (hp : r.lookup p.name = some p) : ∃ rest us, rest <:+ ts ∧
      Command.Spells (.ofEntry (entryOf p)) none rest us ∧
      ∀ n vs, s.options.get? n = some vs → vs = Use.valuesOf n us := by
  cases h.selected hs hp
  case inl h =>
    have ⟨_, rest, us, hsuffix, hsp, _, he⟩ := h
    refine ⟨rest, us, (List.suffix_cons ..).trans hsuffix, hsp, fun n vs hvs => ?_⟩
    rw [he, Selection.get?_ofUses] at hvs
    split at hvs
    case isTrue => exact (Option.some.inj hvs).symm
    case isFalse => cases hvs
  case inr h => exact ⟨[], [], List.nil_suffix, .done, fun n vs hvs => by simp [h] at hvs⟩

namespace Manifest

-- The manifest declares an option that is given once more, behind an option of the same name.
def Redeclares (m : Manifest) (s : Selection) : Prop :=
  ∃ before o after vs, m.toUsage.flattened = before ++ o :: after ∧ o.name ∈ before.map (·.name) ∧
    s.options.get? o.name = some vs ∧ (o.takesValue = true → vs ≠ [])

-- A switch of the driver is no option of the provider, so only the names in the manifest itself matter.
theorem redeclares_iff {m : Manifest} {s : Selection} (hg : ∀ n ∈ Globals.names, s.options.get? n = none) :
    m.Redeclares s ↔ ∃ o, Again Globals.names m.toUsage.flattened o ∧ s.optionTexts o ≠ [] := by
  simp only [ne_eq, Selection.optionTexts_eq_nil_iff, not_not]
  constructor
  case mp =>
    rintro ⟨before, o, after, vs, hf, hm, hvs⟩
    exact ⟨o, ⟨before, after, hf, .inr hm⟩, vs, hvs⟩
  case mpr =>
    rintro ⟨o, ⟨before, after, hf, hm⟩, vs, hvs⟩
    have hm := hm.resolve_left fun h => by simp [hg _ h] at hvs
    exact ⟨before, o, after, vs, hf, hm, hvs⟩

section Forwarding

variable {m : Manifest} {launch : Program.Launcher} {r : Registry} {args : List Token} {s : Selection}

theorem commandArgs_toInvocation (m : Manifest) (s : Selection) : m.commandArgs (s.toInvocation m.name) =
    m.args ++ (m.toUsage.flattened.flatMap s.optionTexts ++ s.args) := by
  have ho := funext (optionArgs_toInvocation s m.name)
  rw [commandArgs, ho, s.toInvocation_eq, List.append_assoc]

theorem options_entryOf_toProvider : (entryOf (m.toProvider launch)).options =
    (pruneOptions m.name .initial m.toUsage.flattened).kept :=
  options_entryOf _

variable (hm : m.defect? = none) (hl : r.lookup m.name = some (m.toProvider launch))
  (hs : (ofRegistry r).parse args = .ok s) (hn : s.provider = some m.name)
include hm hl hs hn

-- The accepted options and the declared ones come to the same unless one that is given is declared again.
theorem flatMap_optionTexts_eq_iff : m.toUsage.flattened.flatMap s.optionTexts =
    (entryOf (m.toProvider launch)).options.flatMap s.optionTexts ↔ ¬m.Redeclares s := by
  have hd := ((defect?_eq_none_iff m).mp hm).right.right.right
  have hfit := (parse_eq_ok_iff.mp hs).fits (p := m.toProvider launch) hn hl
  rw [options_entryOf_toProvider, eq_comm, flatMap_kept_eq_iff (fun _ => Selection.optionTexts_plain) hd,
    redeclares_iff fun n => hfit.get?_of_global]
  simp [Taken.initial]

-- The arguments of the program are the fixed ones, the options that are accepted and given, with their
-- values in the order of the command line, and the residual ones. None of these is ever missing, and nothing
-- else comes in between exactly when no option that is given is declared again.
theorem commandArgs_eq_iff :
    (∃ rest us, rest <:+ args ∧ Command.Spells (.ofEntry (entryOf (m.toProvider launch))) none rest us ∧
      ∀ n vs, s.options.get? n = some vs → vs = Use.valuesOf n us) ∧
    (m.args ++ (entryOf (m.toProvider launch)).options.flatMap s.optionTexts ++ s.args).Sublist
      (m.commandArgs (s.toInvocation m.name)) ∧
    (m.commandArgs (s.toInvocation m.name) =
      m.args ++ (entryOf (m.toProvider launch)).options.flatMap s.optionTexts ++ s.args ↔
        ¬m.Redeclares s) := by
  rw [commandArgs_toInvocation, List.append_assoc]
  refine ⟨(parse_eq_ok_iff.mp hs).ordered (p := m.toProvider launch) hn hl, ?_, ?_⟩
  · rw [options_entryOf_toProvider]
    exact ((sublist_flatMap_kept fun _ => Selection.optionTexts_plain).append_right _).append_left _
  · rw [List.append_cancel_left_eq, List.append_cancel_right_eq]
    exact flatMap_optionTexts_eq_iff hm hl hs hn

end Forwarding

-- With two values for one option that is declared once, both are passed on in their order.
theorem commandArgs_eq_of_two_values :
    let m : Manifest := {
      name := "sim", command := "c",
      options := [{ name := "define", valueName := some "K", multiple := true }] }
    let s : Selection := {
      provider := some "sim", options := .ofList [("define", ["b", "a"])], args := ["x"] }
    let launch : Program.Launcher := fun _ => .ok { ending := .exited 0 }
    let r := Registry.ofProviders [m.toProvider launch]
    (ofRegistry r).parse (["sim", "--define=b", "--define", "a", "x"].map .ofString) = .ok s ∧
    (m.commandArgs (s.toInvocation m.name) =
      m.args ++ (entryOf (m.toProvider launch)).options.flatMap s.optionTexts ++ s.args ↔ ¬m.Redeclares s) ∧
    m.commandArgs (s.toInvocation m.name) = ["--define=b", "--define=a", "x"] := by
  intro m s launch r
  have hs : (ofRegistry r).parse (["sim", "--define=b", "--define", "a", "x"].map .ofString) = .ok s := by
    decide +zetaReduce
  have hm : m.defect? = none := by decide +zetaReduce
  exact ⟨hs, (commandArgs_eq_iff hm (by rfl : _ = some (m.toProvider launch)) hs (by rfl)).right.right, by rfl⟩

-- An option that is declared twice is passed on twice.
theorem commandArgs_of_twice :
    let o : CommandOption := .value "out" "DIR" ""
    let m : Manifest := { name := "sim", command := "c", options := [o, o] }
    let s : Selection := { provider := some "sim", options := .ofList [("out", ["x"])] }
    let launch : Program.Launcher := fun _ => .ok { ending := .exited 0 }
    let r := Registry.ofProviders [m.toProvider launch]
    m.defect? = none ∧ r.lookup m.name = some (m.toProvider launch) ∧
    (ofRegistry r).parse (["sim", "--out=x"].map .ofString) = .ok s ∧ s.provider = some m.name ∧
    m.args ++ (entryOf (m.toProvider launch)).options.flatMap s.optionTexts ++ s.args = ["--out=x"] ∧
    m.commandArgs (s.toInvocation m.name) = ["--out=x", "--out=x"] := by
  intro o m s launch r
  exact ⟨by decide +zetaReduce, by rfl, by decide +zetaReduce, by rfl, by decide +zetaReduce,
    by decide +zetaReduce⟩

end Manifest
end CompilerDriver
