import CompilerDriver.Proofs.CheckStarts
/-!
A name that no provider is registered under.

Whatever stands behind such a name is kept as it is, but it is kept as text. So an unknown name is answered with the
names that there are, unless some argument behind it is no text.
-/
namespace CompilerDriver

open CommandLine

namespace Composition

variable {r : Registry} {ws : List Globals.Switch} {name : String} {rest : List Token}

-- Nothing behind an unknown name is read as an option, as a name or as `--`.
theorem parse_unknown (hr : ∀ p ∈ r.providers, Manifest.isToken p.name = true) (hw : ws.Nodup)
    (hd : name.toList.head? ≠ some '-') (hn : name ∉ r.names) :
    (ofRegistry r).parse (ws.map .ofSwitch ++ .ofString name :: rest) =
      (ofRegistry r).selectUnread (ws.map (·.name)) (.ofString name) rest := by
  have hnamed : (ofRegistry r).named? (.ofString name) = none := by
    rw [named?, Token.text?_ofString, Option.bind_some, entry?_ofRegistry, Registry.lookup_eq_none_iff.mpr hn,
      Option.map_none]
  have hplain : (Token.ofString name).shape = .plain := (Token.shape_ofString_eq_plain_iff name).mpr (.inr hd)
  rw [parse, parseFrom_append hr (hw.map Globals.Switch.name_injective), List.nil_append]
  simp only [parseFrom, hnamed, hplain]

theorem selectUnread_ofString {given : List String} {c : Composition} :
    (∀ t ∈ rest, t.text?.isSome) ∧ c.selectUnread given (.ofString name) rest =
      .ok { globals := .ofNames given, provider := some name,
            args := c.unreadArgs name (rest.filterMap Token.text?) } ∨
    (∃ t ∈ rest, t.text? = none) ∧ c.selectUnread given (.ofString name) rest = .error (.notText c.usageLine) := by
  rw [selectUnread, Token.text?_ofString]
  by_cases h : ∀ t ∈ rest, t.text?.isSome
  case pos => exact .inl ⟨h, by simp only [Token.mapM_text?_eq_some_iff.mpr ⟨h, rfl⟩]⟩
  case neg =>
    have hnone : rest.mapM Token.text? = none :=
      Option.eq_none_iff_forall_ne_some.mpr fun _ he => h (Token.mapM_text?_eq_some_iff.mp he).left
    exact .inr ⟨by simpa using h, by simp only [hnone]⟩

end Composition

-- An unknown name with anything behind it, and with the switch `nocheck` in front of it or not.
def unknownLine (nocheck : Bool) (name : String) (rest : List Token) : List Token :=
  (if nocheck then [.nocheck] else []).map Token.ofSwitch ++ .ofString name :: rest

-- What can be relied on when an unknown name is dispatched with `rest` behind it. The names that there are are told
-- exactly when `rest` is text, and whatever it is, no provider is called and no check is started.
structure Registry.Answers (r : Registry) (name : String) (rest : List Token) (d : Dispatch) : Prop where
  told : d.disposition = .unknownProvider name r.names ↔ ∀ t ∈ rest, t.text?.isSome
  refused : (∃ t ∈ rest, t.text? = none) →
    d.disposition = .usageError (UsageError.notText (Composition.ofRegistry r).usageLine).message
  uncalled : d.calls = []
  unchecked : d.checks = 0

-- A dispatch starts no check unless it comes to a provider.
theorem Registry.Comes.checks_eq_zero {r : Registry} {args : List Token} {cs : List (Provider × Invocation)}
    {d : Disposition} (h : r.Comes args cs d) (hd : d.isCompleted = false) (check : Bool) :
    (r.dispatch check args).checks = 0 := by
  have ⟨_, hd'⟩ := (r.comes_dispatch true args).unique h
  rw [r.checks_dispatch, if_neg]
  rintro ⟨_, hc, _⟩
  simp [hd', hd] at hc

section Unknown

variable {r : Registry} {name : String} (hr : ∀ p ∈ r.providers, Manifest.isToken p.name = true)
  (hd : name.toList.head? ≠ some '-') (hn : name ∉ r.names) (nocheck : Bool) (rest : List Token)
include hr hd hn

theorem Registry.comes_unknownLine :
    (∀ t ∈ rest, t.text?.isSome) ∧ r.Comes (unknownLine nocheck name rest) [] (.unknownProvider name r.names) ∨
    (∃ t ∈ rest, t.text? = none) ∧ r.Comes (unknownLine nocheck name rest) []
      (.usageError (UsageError.notText (Composition.ofRegistry r).usageLine).message) := by
  have hw : (if nocheck then [.nocheck] else [] : List Globals.Switch).Nodup := by cases nocheck <;> decide
  have hparse := @Composition.parse_unknown r _ name rest hr hw hd hn
  generalize hg : Globals.ofNames ((if nocheck then [.nocheck] else [] : List Globals.Switch).map (·.name)) = g
  have hset : g.help = false ∧ g.version = false := by
    subst hg
    cases nocheck <;> decide
  have hne : unknownLine nocheck name rest ≠ [] := by simp [unknownLine]
  rcases Composition.selectUnread_ofString with ⟨ht, hs⟩ | ⟨ht, hs⟩
  case inl =>
    rw [hs, hg] at hparse
    refine .inl ⟨ht, .unknown hparse ?_ hset.right rfl (lookup_eq_none_iff.mpr hn)⟩
    simp [hne, hset.left]
  case inr =>
    rw [hs] at hparse
    exact .inr ⟨ht, .refused hparse⟩

theorem dispatch_answers (check : Bool) : r.Answers name rest (r.dispatch check (unknownLine nocheck name rest)) := by
  have hc := r.comes_dispatch check (unknownLine nocheck name rest)
  rcases r.comes_unknownLine hr hd hn nocheck rest with ⟨ht, h⟩ | ⟨⟨t, htm, ht⟩, h⟩
  all_goals
    have ⟨hcalls, hdisposition⟩ := hc.unique h
  case inl =>
    refine ⟨iff_of_true hdisposition ht, ?_, hcalls, h.checks_eq_zero rfl check⟩
    rintro ⟨t, htm, hnone⟩
    simpa [hnone] using ht t htm
  case inr =>
    refine ⟨iff_of_false ?_ fun hall => by simpa [ht] using hall t htm, fun _ => hdisposition, hcalls,
      h.checks_eq_zero rfl check⟩
    rw [hdisposition]
    nofun

end Unknown

-- Names of providers, switches and `--` are not looked at behind an unknown name.
theorem dispatch_answers_of_names :
    let r := Registry.ofProviders [
      { name := "verilog", usage := .ofSummary "verilog", invoke := fun _ => { outcome := .success } }]
    let rest : List Token := ["--help", "verilog", "-", "--", "--flat=x", ""].map .ofString
    (∀ p ∈ r.providers, Manifest.isToken p.name = true) ∧ "vhdl".toList.head? ≠ some '-' ∧ "vhdl" ∉ r.names ∧
    r.Answers "vhdl" rest (r.dispatch true (unknownLine true "vhdl" rest)) ∧
    (r.dispatch true (unknownLine true "vhdl" rest)).disposition = .unknownProvider "vhdl" ["verilog"] := by
  intro r rest
  have hr : ∀ p ∈ r.providers, Manifest.isToken p.name = true := by decide +zetaReduce
  have hd : "vhdl".toList.head? ≠ some '-' := by decide
  have hn : "vhdl" ∉ r.names := by decide +zetaReduce
  have h := dispatch_answers hr hd hn true rest true
  exact ⟨hr, hd, hn, h, h.told.mpr (by decide +zetaReduce)⟩

-- One byte that is no text, and the unknown name is not told.
theorem not_told_of_byte :
    let r := Registry.ofProviders [
      { name := "verilog", usage := .ofSummary "verilog", invoke := fun _ => { outcome := .success } }]
    let d := r.dispatch true [.ofString "vhdl", .ofBytes [0xff]]
    (∀ p ∈ r.providers, Manifest.isToken p.name = true) ∧ "vhdl".toList.head? ≠ some '-' ∧ "vhdl" ∉ r.names ∧
    d.disposition ≠ .unknownProvider "vhdl" r.names ∧
    d.disposition = .usageError ("error: invalid UTF-8 was detected in one or more arguments\n\n" ++
      "Usage: Compiler [OPTIONS] <verilog> [PROVIDER_OPTIONS]\n") := by
  intro r d
  have hd : d.disposition = .usageError ("error: invalid UTF-8 was detected in one or more arguments\n\n" ++
      "Usage: Compiler [OPTIONS] <verilog> [PROVIDER_OPTIONS]\n") := by
    decide +kernel +zetaReduce
  refine ⟨by decide +zetaReduce, by decide, by decide +zetaReduce, ?_, hd⟩
  rw [hd]
  nofun

end CompilerDriver
