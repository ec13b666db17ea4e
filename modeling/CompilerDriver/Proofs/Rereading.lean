import CompilerDriver.Proofs.Forwarding
/-!
Reading what was passed on.

The program's arguments spell the selection once more, and the command line that was composed for its provider
reads them. The residual arguments come last and nothing separates them from the options, so they come back only if
none of them looks like an option. Then the selection comes back as well, unless an option is declared again.
-/
namespace CompilerDriver

open CommandLine Command CompilerDriver.Composition

namespace CommandLine.Command

variable {c : Command} {a b : Option CommandOption} {t : Token} {ts : List Token} {us : List Use}

theorem Letters.residuals_eq_nil {ls : Token} (h : Letters c ls us a) : Use.residuals us = [] := by
  induction h
  case switch hi => exact hi
  all_goals rfl

-- A token that is not plain gives no residual argument.
theorem Gives.residuals_eq_nil (h : Gives c a t us b) (ht : t.shape ≠ .plain) : Use.residuals us = [] := by
  cases h
  case residual hs => exact absurd hs ht
  case cluster hl => exact hl.residuals_eq_nil
  all_goals rfl

theorem Gives.length_residuals_le (h : Gives c a t us b) : (Use.residuals us).length ≤ 1 := by
  by_cases ht : t.shape = .plain
  case neg => simp [h.residuals_eq_nil ht]
  case pos =>
    cases h
    case residual => exact List.length_filterMap_le ..
    case cluster hl => simp [hl.residuals_eq_nil]
    all_goals exact Nat.zero_le _

theorem Spells.length_residuals_le (h : Spells c a ts us) : (Use.residuals us).length ≤ ts.length := by
  induction h
  case done => simp
  case token hg _ hi =>
    have := hg.length_residuals_le
    simp only [Use.residuals_append, List.length_append, List.length_cons]
    omega
  case escape t ts _ =>
    rw [Use.residuals_residual]
    exact Nat.le_succ_of_le (List.length_filterMap_le ..)

-- If there are as many residual arguments as tokens, then nothing was read but plain tokens.
theorem Spells.plain_of_length (h : Spells c a ts us) (hl : (Use.residuals us).length = ts.length) :
    ∀ t ∈ ts, t.shape = .plain := by
  induction h
  case done => nofun
  case token hg hs hi =>
    have h₁ := hg.length_residuals_le
    have h₂ := hs.length_residuals_le
    simp only [Use.residuals_append, List.length_append, List.length_cons] at hl
    refine List.forall_mem_cons.mpr ⟨?_, hi (by omega)⟩
    by_contra ht
    rw [hg.residuals_eq_nil ht, List.length_nil] at hl
    omega
  case escape t ts _ =>
    have := List.length_filterMap_le Token.text? ts
    rw [Use.residuals_residual, List.length_cons] at hl
    omega

-- Long options in front give no residual arguments, and `--` is none of them.
theorem Spells.plain_of_append {os rest : List Token}
    (ho : ∀ t ∈ os, ∃ name attached, t.shape = .long name attached)
    (h : Spells c a (os ++ rest) us) (hl : (Use.residuals us).length = rest.length) :
    ∀ t ∈ rest, t.shape = .plain := by
  induction os generalizing a us
  case nil => exact h.plain_of_length hl
  case cons t os hi =>
    have ⟨⟨name, attached, ht⟩, ho⟩ := List.forall_mem_cons.mp ho
    cases h
    case token hg hs =>
      have hnil := hg.residuals_eq_nil (by simp [ht])
      rw [Use.residuals_append, hnil, List.nil_append] at hl
      exact hi ho hs hl
    case escape hs => simp [ht] at hs

end CommandLine.Command

-- All options are written as long ones.
theorem CommandLine.Selection.shape_of_mem_optionTexts {s : Selection} {o : CommandOption} {text : String}
    (hd : o.defect? = none) (h : text ∈ s.optionTexts o) :
    ∃ name attached, (Token.ofString text).shape = .long name attached := by
  have ⟨hn, he⟩ := CommandOption.writable hd
  unfold optionTexts at h
  cases hvs : s.options.get? o.name <;> simp only [hvs] at h
  case none => cases h
  case some vs =>
    split at h
    case isTrue =>
      obtain ⟨v, _, hv⟩ := List.mem_map.mp h
      exact ⟨_, _, hv ▸ Token.shape_ofString_attached he v⟩
    case isFalse => exact ⟨_, _, List.mem_singleton.mp h ▸ Token.shape_ofString_long hn he⟩

namespace Manifest

-- What the program gets behind its fixed arguments.
def passed (m : Manifest) (s : Selection) : List String :=
  (m.commandArgs (s.toInvocation m.name)).drop m.args.length

-- The program reads what it is passed with the command line that was composed for its provider. It gets exactly the
-- residual arguments, no switch of the driver, and no option that was not given.
def Rereads (m : Manifest) (e : Entry) (s : Selection) : Prop :=
  ∃ s', selectEntry [] e ((m.passed s).map .ofString) = .ok s' ∧ s'.args = s.args ∧ s'.globals = {} ∧
    ∀ n, s'.options.contains n = true → s.options.contains n = true

section Passed

variable {m : Manifest} {launch : Program.Launcher} {r : Registry} {args : List Token} {s : Selection}

theorem passed_eq (m : Manifest) (s : Selection) :
    m.passed s = m.toUsage.flattened.flatMap s.optionTexts ++ s.args := by
  rw [passed, commandArgs_toInvocation, List.drop_left]

-- No name is declared again, so none that is given is.
theorem not_redeclares_of_nodup (hd : (m.toUsage.flattened.map (·.name)).Nodup) : ¬m.Redeclares s := by
  intro ⟨before, o, after, _, hf, hm, _⟩
  rw [hf, List.map_append, List.map_cons] at hd
  exact (List.nodup_append.mp hd).right.right _ hm _ (List.mem_cons_self ..) rfl

theorem shape_of_mem_texts {text : String} (hm : m.defect? = none)
    (h : text ∈ m.toUsage.flattened.flatMap s.optionTexts) :
    ∃ name attached, (Token.ofString text).shape = .long name attached := by
  have ⟨o, ho, htext⟩ := List.mem_flatMap.mp h
  exact Selection.shape_of_mem_optionTexts (((defect?_eq_none_iff m).mp hm).right.right.right o ho) htext

-- Whatever is declared, the residual arguments are the last tokens that are read. If as many come back as there are,
-- then each of them was read as one.
theorem plain_of_selectEntry {s' : Selection} (hm : m.defect? = none)
    (h : selectEntry [] (entryOf (m.toProvider launch)) ((m.passed s).map .ofString) = .ok s') (hargs : s'.args = s.args) :
    ∀ a ∈ s.args, a.toList.head? = some '-' → a = "-" := by
  intro a hmem
  have ⟨us, hsp, _, hus⟩ := (selectEntry_eq_ok_iff (nodup_ofEntry _)).mp h
  rw [passed_eq, List.map_append] at hsp
  have hlen : (Use.residuals us).length = (s.args.map Token.ofString).length := by
    rw [List.length_map, ← hargs, hus]
    rfl
  have hlong : ∀ t ∈ (m.toUsage.flattened.flatMap s.optionTexts).map Token.ofString,
      ∃ name attached, t.shape = .long name attached :=
    List.forall_mem_map.mpr fun _ => shape_of_mem_texts hm
  have hplain := hsp.plain_of_append hlong hlen _ (List.mem_map_of_mem hmem)
  exact imp_iff_or_not.mpr ((Token.shape_ofString_eq_plain_iff a).mp hplain)

variable (hm : m.defect? = none) (hl : r.lookup m.name = some (m.toProvider launch))
  (hs : (ofRegistry r).parse args = .ok s) (hn : s.provider = some m.name)
include hm hl hs hn

-- The program can read what it is passed with the command line that was composed for its provider.
theorem selectEntry_passed (hr : ¬m.Redeclares s) (ha : ∀ a ∈ s.args, a.toList.head? = some '-' → a = "-") :
    selectEntry [] (entryOf (m.toProvider launch)) ((m.passed s).map .ofString) =
      .ok { s with globals := {} } := by
  have hfit := (parse_eq_ok_iff.mp hs).fits (p := m.toProvider launch) hn hl
  have hplain : ∀ a ∈ s.args, (Token.ofString a).shape = .plain := fun a hmem =>
    (Token.shape_ofString_eq_plain_iff a).mpr (imp_iff_or_not.mp (ha a hmem))
  rw [passed_eq, (flatMap_optionTexts_eq_iff hm hl hs hn).mpr hr, Selection.selectEntry_texts hfit hplain, hn]
  rfl

-- What is passed on is read again as it was given, if the manifest declares each name once and no residual
-- argument looks like an option.
theorem parse_passed (hd : (m.toUsage.flattened.map (·.name)).Nodup)
    (ha : ∀ a ∈ s.args, a.toList.head? = some '-' → a = "-") :
    (ofRegistry r).parse (.ofString m.name :: (m.passed s).map .ofString) = .ok { s with globals := {} } := by
  have he : (ofRegistry r).named? (.ofString m.name) = some (entryOf (m.toProvider launch)) := by
    rw [named?, Token.text?_ofString, Option.bind_some, entry?_ofRegistry, hl, Option.map_some]
  simp only [parse, parseFrom, he]
  exact selectEntry_passed hm hl hs hn (not_redeclares_of_nodup hd) ha

-- What can be relied on when a program reads its arguments. Behind the fixed ones and those for options stand the
-- residual ones as they are, with no `--` before them. None of them looks like an option if they come back, and
-- if none does, they come back, unless an option that is given is declared again.
structure Returns (m : Manifest) (e : Entry) (s : Selection) : Prop where
  passed : m.commandArgs (s.toInvocation m.name) = m.args ++ m.toUsage.flattened.flatMap s.optionTexts ++ s.args
  unseparated : "--" ∉ m.toUsage.flattened.flatMap s.optionTexts
  plain : ∀ s', selectEntry [] e ((m.passed s).map .ofString) = .ok s' → s'.args = s.args →
    ∀ a ∈ s.args, a.toList.head? = some '-' → a = "-"
  returned : ¬m.Redeclares s → (∀ a ∈ s.args, a.toList.head? = some '-' → a = "-") → m.Rereads e s

theorem passed_returns : m.Returns (entryOf (m.toProvider launch)) s where
  passed := by rw [commandArgs_toInvocation, List.append_assoc]
  unseparated h := by
    have ⟨_, _, hlong⟩ := shape_of_mem_texts hm h
    have hend : (Token.ofString "--").shape = .terminator := by decide
    simp [hend] at hlong
  plain _ := plain_of_selectEntry hm
  returned hr ha := ⟨_, selectEntry_passed hm hl hs hn hr ha, rfl, rfl, fun _ => id⟩

end Passed

-- Values that look like options, or are empty, are read again.
theorem parse_passed_of_dashes :
    let m : Manifest := {
      name := "sim", command := "c", args := ["run"],
      options := [
        { name := "flat", short := some 'f' },
        { name := "define", short := some 'd', valueName := some "K", multiple := true }] }
    let s : Selection := {
      globals := { nocheck := true }, provider := some "sim",
      options := .ofList [("flat", []), ("define", ["--flat", "", "a=b"])], args := ["-", "sim"] }
    let launch : Program.Launcher := fun _ => .ok {}
    let r := Registry.ofProviders [m.toProvider launch]
    (ofRegistry r).parse (["--nocheck", "sim", "-fd--flat", "-", "--define=", "-da=b", "sim"].map .ofString) = .ok s ∧
    (ofRegistry r).parse (.ofString m.name :: (m.passed s).map .ofString) = .ok { s with globals := {} } := by
  intro m s launch r
  have hs : (ofRegistry r).parse
      (["--nocheck", "sim", "-fd--flat", "-", "--define=", "-da=b", "sim"].map .ofString) = .ok s := by
    decide +zetaReduce
  have hm : m.defect? = none := by decide +zetaReduce
  have hd : (m.toUsage.flattened.map (·.name)).Nodup := by decide +zetaReduce
  have ha : ∀ a ∈ s.args, a.toList.head? = some '-' → a = "-" := by decide +zetaReduce
  exact ⟨hs, parse_passed hm (by rfl : _ = some (m.toProvider launch)) hs (by rfl) hd ha⟩

-- A program with a switch gets it back as it was given.
theorem passed_returns_of_switch :
    let m : Manifest := { name := "sim", command := "c", options := [.switch "flat" ""] }
    let s : Selection := { provider := some "sim", options := .ofList [("flat", [])], args := ["x"] }
    let launch : Program.Launcher := fun _ => .ok {}
    let r := Registry.ofProviders [m.toProvider launch]
    m.defect? = none ∧ r.lookup m.name = some (m.toProvider launch) ∧
    (ofRegistry r).parse (["sim", "x", "--flat"].map .ofString) = .ok s ∧ s.provider = some m.name ∧
    m.Returns (entryOf (m.toProvider launch)) s ∧ m.Rereads (entryOf (m.toProvider launch)) s := by
  intro m s launch r
  have hs : (ofRegistry r).parse (["sim", "x", "--flat"].map .ofString) = .ok s := by decide +zetaReduce
  have hm : m.defect? = none := by decide +zetaReduce
  have hl : r.lookup m.name = some (m.toProvider launch) := by rfl
  have hd : (m.toUsage.flattened.map (·.name)).Nodup := by decide +zetaReduce
  have h := passed_returns hm hl hs (by rfl)
  exact ⟨hm, hl, hs, by rfl, h, h.returned (not_redeclares_of_nodup hd) (by decide +zetaReduce)⟩

-- A residual argument turns into a switch that was not given.
theorem rereads_residual_as_switch :
    let m : Manifest := { name := "sim", command := "c", options := [.switch "flat" ""] }
    let s : Selection := { provider := some "sim", args := ["--flat"] }
    let launch : Program.Launcher := fun _ => .ok {}
    let r := Registry.ofProviders [m.toProvider launch]
    m.defect? = none ∧ r.lookup m.name = some (m.toProvider launch) ∧
    (ofRegistry r).parse (["sim", "--", "--flat"].map .ofString) = .ok s ∧ s.provider = some m.name ∧
    selectEntry [] (entryOf (m.toProvider launch)) ((m.passed s).map .ofString) =
      .ok { provider := some "sim", options := .ofList [("flat", [])] } := by
  intro m s launch r
  exact ⟨by decide +zetaReduce, by rfl, by decide +zetaReduce, by rfl, by decide +zetaReduce⟩

end Manifest

end CompilerDriver
