import CompilerDriver.Proofs.CommandLine.Root
import CompilerDriver.Proofs.HelpText
/-!
What one provider declares is nothing to the others.

Two registries that differ in the usage of one provider only accept the same command lines for everyone else and
select the same by them. Their help texts differ in the block of that provider only.
-/
namespace CompilerDriver

open CommandLine CompilerDriver.Composition

-- The same names in the same order, with the same usages except for the provider `q`.
def Registry.SameBut (q : String) (r₁ r₂ : Registry) : Prop :=
  List.Forall₂ (fun p₁ p₂ => p₁.name = p₂.name ∧ (p₁.name ≠ q → p₁.usage = p₂.usage)) r₁.providers r₂.providers

namespace Composition

variable {q n : String} {c₁ c₂ : Composition} {given : List String} {t : Token} {ts : List Token} {s : Selection}

-- The entries differ at most in the one for `q`.
def SameBut (q : String) (c₁ c₂ : Composition) : Prop :=
  List.Forall₂ (fun e₁ e₂ => e₁.name = e₂.name ∧ (e₁.name ≠ q → e₁ = e₂)) c₁.entries c₂.entries

-- Composing looks at each provider on its own.
theorem sameBut_ofRegistry {r₁ r₂ : Registry} (h : r₁.SameBut q r₂) :
    SameBut q (ofRegistry r₁) (ofRegistry r₂) := by
  refine List.forall₂_map_left_iff.mpr (List.forall₂_map_right_iff.mpr (h.imp ?_))
  intro p₁ p₂ ⟨hn, hu⟩
  refine ⟨hn, fun hq => ?_⟩
  rw [entryOf, entryOf, ← hn, hu hq]

theorem selectEntry_provider {e : Entry} (h : selectEntry given e ts = .ok s) : s.provider = some e.name := by
  unfold selectEntry at h
  cases hr : (Command.ofEntry e).read ts <;> rw [hr] at h <;> cases h
  rfl

theorem entry?_eq_none_iff {c : Composition} : c.entry? n = none ↔ n ∉ c.names := by
  simp [names, entry?]

namespace SameBut

variable (h : SameBut q c₁ c₂)
include h

theorem symm : SameBut q c₂ c₁ :=
  (h.imp fun _ _ ⟨hn, he⟩ => ⟨hn.symm, fun hq => (he (hn ▸ hq)).symm⟩).flip

theorem names_eq : c₁.names = c₂.names := by
  refine List.forall₂_eq_eq_eq ▸ List.forall₂_map_left_iff.mpr (List.forall₂_map_right_iff.mpr ?_)
  exact h.imp fun _ _ => And.left

theorem entry?_eq (hn : n ≠ q) : c₁.entry? n = c₂.entry? n := by
  obtain ⟨es₁⟩ := c₁
  obtain ⟨es₂⟩ := c₂
  simp only [SameBut] at h
  induction h
  case nil => rfl
  case cons e₁ e₂ es₁ es₂ he _ hi =>
    have ⟨hname, he⟩ := he
    simp only [List.find?_cons, entry?] at hi ⊢
    by_cases hq : e₁.name = q
    case pos => simp [hq, ← hname, Ne.symm hn, hi]
    case neg => rw [he hq, hi]

theorem named?_eq_none (ht : c₁.named? t = none) : c₂.named? t = none := by
  simp only [named?, Option.bind_eq_none_iff, entry?_eq_none_iff] at ht ⊢
  exact h.names_eq ▸ ht

theorem named?_eq_some {e : Entry} (ht : c₁.named? t = some e) (he : e.name ≠ q) : c₂.named? t = some e := by
  have ⟨n, hn, hfind⟩ := Option.bind_eq_some_iff.mp ht
  have hname : e.name = n := by simpa using List.find?_some hfind
  rw [named?, hn, Option.bind_some, ← h.entry?_eq (hname ▸ he), hfind]

-- Which names are registered does not depend on what is declared under them.
theorem selectUnread_eq (hs : c₁.selectUnread given t ts = .ok s) : c₂.selectUnread given t ts = .ok s := by
  have hargs : c₁.unreadArgs = c₂.unreadArgs := by
    funext name behind
    have hnone : c₁.entry? name = none ↔ c₂.entry? name = none := by
      rw [entry?_eq_none_iff, entry?_eq_none_iff, h.names_eq]
    simp only [unreadArgs, ← Option.ne_none_iff_isSome, ne_eq, hnone]
  rw [selectUnread_eq_ok_iff] at hs ⊢
  exact hargs ▸ hs

-- A command line for another provider, or for none, is read without a look at the provider `q`.
theorem opens (ho : Opens c₁ given ts s) (hs : s.provider ≠ some q) : Opens c₂ given ts s := by
  induction ho
  case bare => exact .bare
  case ended ht hd => exact .ended (h.named?_eq_none ht) hd
  case switch ht hd ho hn _ hi => exact .switch (h.named?_eq_none ht) hd ho hn (hi hs)
  case entry ht hse =>
    refine .entry (h.named?_eq_some ht fun he => hs ?_) hse
    rw [selectEntry_provider hse, he]
  case unknown ht hd hse =>
    exact .unknown (h.named?_eq_none ht) hd (h.selectUnread_eq hse)
  case escaped ht hd hse =>
    exact .escaped (h.named?_eq_none ht) hd (h.selectUnread_eq hse)

theorem parse_iff (hs : s.provider ≠ some q) : c₁.parse ts = .ok s ↔ c₂.parse ts = .ok s := by
  rw [parse_eq_ok_iff, parse_eq_ok_iff]
  exact ⟨fun ho => h.opens ho hs, fun ho => h.symm.opens ho hs⟩

theorem usageLine_eq : c₁.usageLine = c₂.usageLine := by
  rw [usageLine, h.names_eq, usageLine]

theorem headText_eq : Help.headText c₁ = Help.headText c₂ := by
  rw [Help.headText, h.usageLine_eq, Help.headText]

end SameBut

-- What the usage of the provider `q` has no influence on: the command lines for other providers, for unknown ones
-- and for none, and the help text apart from the block of `q`.
structure Isolated (q : String) (c₁ c₂ : Composition) : Prop where
  parse : ∀ ts s, s.provider ≠ some q → (c₁.parse ts = .ok s ↔ c₂.parse ts = .ok s)
  usageLine : c₁.usageLine = c₂.usageLine
  head : Help.headText c₁ = Help.headText c₂
  blocks : List.Forall₂
    (fun e₁ e₂ => e₁.name = e₂.name ∧ (e₁.name ≠ q → Help.entryText e₁ = Help.entryText e₂)) c₁.entries c₂.entries
  text₁ : Help.text c₁ = Help.headText c₁ ++ String.join (c₁.entries.map Help.entryText)
  text₂ : Help.text c₂ = Help.headText c₂ ++ String.join (c₂.entries.map Help.entryText)

theorem isolated_of_sameBut {r₁ r₂ : Registry} (h : r₁.SameBut q r₂) :
    Isolated q (ofRegistry r₁) (ofRegistry r₂) where
  parse := fun _ _ => (sameBut_ofRegistry h).parse_iff
  usageLine := (sameBut_ofRegistry h).usageLine_eq
  head := (sameBut_ofRegistry h).headText_eq
  blocks := (sameBut_ofRegistry h).imp fun _ _ ⟨hn, he⟩ => ⟨hn, fun hq => he hq ▸ rfl⟩
  text₁ := Help.text_eq _
  text₂ := Help.text_eq _

-- A provider takes over the name and the alias of an option from another one, which keeps both.
theorem isolated_of_collision :
    let provider (name : String) (usage : Usage) : Provider :=
      { name, usage, invoke := fun _ => { outcome := .success } }
    let synth := provider "synth" { summary := "synth", options := [{ name := "flat", short := some 'f' }] }
    let r₁ := Registry.ofProviders [provider "sim" (.ofSummary "sim"), synth]
    let r₂ := Registry.ofProviders [provider "sim" {
      summary := "sim [OPTIONS]"
      groups := [{
        summary := "Files"
        options := [{ name := "flat", short := some 'f', valueName := some "DIR" }, .switch "help" ""] }] }, synth]
    let s : Selection := {
      globals := { nocheck := true }, provider := some "synth", options := .ofList [("flat", [])], args := ["sim"] }
    r₁.SameBut "sim" r₂ ∧ Isolated "sim" (ofRegistry r₁) (ofRegistry r₂) ∧
    (ofRegistry r₁).parse (["--nocheck", "synth", "-f", "sim"].map .ofString) = .ok s ∧
    (ofRegistry r₂).parse (["--nocheck", "synth", "-f", "sim"].map .ofString) = .ok s ∧
    (ofRegistry r₁).parse (["sim", "-f", "synth"].map .ofString) ≠
      (ofRegistry r₂).parse (["sim", "-f", "synth"].map .ofString) := by
  intro provider synth r₁ r₂ s
  have h : r₁.SameBut "sim" r₂ := .cons ⟨rfl, fun hne => absurd rfl hne⟩ (.cons ⟨rfl, fun _ => rfl⟩ .nil)
  have hi := isolated_of_sameBut h
  have hs : (ofRegistry r₁).parse (["--nocheck", "synth", "-f", "sim"].map .ofString) = .ok s := by
    decide +zetaReduce
  exact ⟨h, hi, hs, (hi.parse _ s (by decide +zetaReduce)).mp hs, by decide +zetaReduce⟩

end Composition
end CompilerDriver
