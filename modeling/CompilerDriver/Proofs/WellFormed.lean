import CompilerDriver.Proofs.CommandLine.Root
import CompilerDriver.Proofs.CommandLine.Spelling
import Mathlib.Data.List.Forall2
/-!
Every selection is well-formed.

The options that are selected are accepted by the provider, and none of them hides a switch of the driver. Each has
as many values as it takes, in the order in which they were written.
-/
namespace CompilerDriver

open CommandLine CompilerDriver.Composition

namespace CommandLine

theorem Token.suffix_of_splitEquals {t name value : Token} (h : t.splitEquals = (name, some value)) :
    value <:+ t := by
  by_cases hm : some '=' ∈ t
  case pos =>
    obtain ⟨before, rest, rfl, hnot⟩ := List.eq_append_cons_of_mem hm
    rw [splitEquals_append hnot] at h
    cases h
    exact (List.suffix_cons ..).trans (List.suffix_append ..)
  case neg =>
    rw [splitEquals_of_not_mem hm] at h
    cases h

theorem Token.suffix_of_long {t name value : Token} (h : t.shape = .long name (some value)) : value <:+ t := by
  unfold shape at h
  split at h <;> simp only [Shape.long.injEq, reduceCtorEq] at h
  have hsuffix := suffix_of_splitEquals (Prod.ext h.left h.right)
  exact hsuffix.trans <| (List.suffix_cons ..).trans (List.suffix_cons ..)

theorem Token.suffix_of_cluster {t letters : Token} (h : t.shape = .cluster letters) : letters <:+ t := by
  unfold shape at h
  split at h <;> simp only [Shape.cluster.injEq, reduceCtorEq] at h
  exact h ▸ List.suffix_cons ..

-- The values stand at the ends of tokens, each in a token of its own, in the order of the tokens.
def InOrder : List String → List Token → Prop :=
  List.SublistForall₂ fun v t => Token.ofString v <:+ t

namespace InOrder

variable {vs ws : List String} {t t' : Token} {ts : List Token}

theorem append {us : List Token} (h : InOrder vs ts) (h' : InOrder ws us) : InOrder (vs ++ ws) (ts ++ us) := by
  have ⟨ts', hv, hts⟩ := List.sublistForall₂_iff.mp h
  have ⟨us', hw, hus⟩ := List.sublistForall₂_iff.mp h'
  exact List.sublistForall₂_iff.mpr ⟨ts' ++ us', List.rel_append hv hw, hts.append hus⟩

-- What stands at the end of a part that ends the token stands at the end of the token.
theorem of_suffix (ht : t <:+ t') (h : InOrder vs [t]) : InOrder vs [t'] := by
  cases h
  case nil => exact .nil
  case cons hv h => exact .cons (hv.trans ht) h
  case cons_right h => exact .cons_right h

-- A use for a value gives the text of its token, if at all.
theorem of_value {n : String} {o : CommandOption} : InOrder (Use.valuesOf n [.value o t]) [t] := by
  rw [Use.valuesOf_singleton, Use.valueFor?_value]
  split
  case isFalse => exact .nil
  case isTrue =>
    cases ht : t.text?
    case none => exact .nil
    case some v =>
      rw [Token.text?_eq_some_iff.mp ht]
      exact .cons List.suffix_rfl .nil

end InOrder

namespace Command

variable {c : Command} {a b : Option CommandOption} {t : Token} {ts : List Token} {us : List Use} {n : String}

theorem Letters.inOrder {ls : Token} (h : Letters c ls us b) : InOrder (Use.valuesOf n us) [ls] := by
  induction h
  case nil => exact .nil
  case switch hi => exact hi.of_suffix (List.suffix_cons ..)
  case last => exact .nil
  case equals => exact InOrder.of_value.of_suffix <| (List.suffix_cons ..).trans (List.suffix_cons ..)
  case attached => exact InOrder.of_value.of_suffix (List.suffix_cons ..)

theorem Gives.inOrder (h : Gives c a t us b) : InOrder (Use.valuesOf n us) [t] := by
  cases h
  case residual => exact .nil
  case awaited => exact .of_value
  case switch => exact .nil
  case separate => exact .nil
  case attached hs => exact InOrder.of_value.of_suffix (Token.suffix_of_long hs)
  case cluster hs hl => exact hl.inOrder.of_suffix (Token.suffix_of_cluster hs)

theorem Spells.inOrder (h : Spells c a ts us) : InOrder (Use.valuesOf n us) ts := by
  induction h
  case done => exact .nil
  case token hg _ hi =>
    rw [Use.valuesOf_append]
    exact hg.inOrder.append hi
  case escape =>
    rw [Use.valuesOf_residual]
    exact .nil

end Command

end CommandLine

namespace Composition

-- The option `n` is selected rightly with the values `vs` by the command line `args` for the provider `p`.
structure WellFormed (p : Provider) (args : List Token) (n : String) (vs : List String) : Prop where
  free : n ∉ Globals.names ∧ n ≠ CommandOption.reservedName
  accepted : ∃ o ∈ (entryOf p).options, o.name = n ∧
    (o.takesValue = false → vs = []) ∧
    (o.takesValue = true → o.multiple = false → vs.length = 1) ∧
    (o.takesValue = true → o.multiple = true → 1 ≤ vs.length)
  given : ∃ before rest us, args = before ++ .ofString p.name :: rest ∧
    Command.Spells (.ofEntry (entryOf p)) none rest us ∧ n ∈ Use.names us ∧ vs = Use.valuesOf n us ∧
    InOrder vs rest

variable {r : Registry} {p : Provider} {args : List Token} {s : Selection} {n : String} {vs : List String}

theorem ne_reserved_of_mem {o : CommandOption} (h : o ∈ (entryOf p).options) :
    o.name ≠ CommandOption.reservedName :=
  have hd := (of_mem_kept (options_entryOf p ▸ h)).left
  (o.defect?_eq_none_iff.mp hd).right.right.left

theorem wellFormed_of_fits {before : Globals} {rest : List Token} {us : List Use}
    (hsuffix : .ofString p.name :: rest <:+ args) (hsp : Command.Spells (.ofEntry (entryOf p)) none rest us)
    (hl : Legal us) (hs : (Selection.ofUses before (entryOf p) us).options.get? n = some vs) :
    WellFormed p args n vs := by
  have hf : (Selection.ofUses before (entryOf p) us).Fits (entryOf p) := Selection.fits_ofUses hsp hl
  obtain ⟨o, ho, rfl⟩ := hf.known n vs hs
  have hvs : o.name ∈ Use.names us ∧ vs = Use.valuesOf o.name us := by
    rw [Selection.get?_ofUses] at hs
    split at hs
    case isTrue hn => exact ⟨hn.left, (Option.some.inj hs).symm⟩
    case isFalse => cases hs
  have hpos : o.takesValue = true → 1 ≤ vs.length := fun hv =>
    List.length_pos_iff.mpr (hf.value o ho vs hs hv)
  constructor
  case free => exact ⟨not_mem_names_of_mem ho, ne_reserved_of_mem ho⟩
  case accepted =>
    refine ⟨o, ho, rfl, hf.switch o ho vs hs, fun hv hm => ?_, fun hv _ => hpos hv⟩
    exact Nat.le_antisymm (hf.once o ho vs hs hm) (hpos hv)
  case given =>
    obtain ⟨first, rfl⟩ := hsuffix
    exact ⟨first, rest, us, rfl, hsp, hvs.left, hvs.right, hvs.right ▸ hsp.inOrder⟩

-- Whatever the providers declare, the options that are selected are well-formed. Without a registered provider
-- there are none.
theorem parse_wellFormed (hs : (ofRegistry r).parse args = .ok s) :
    (∀ p ∈ r.providers, s.provider = some p.name → ∀ n vs, s.options.get? n = some vs →
      WellFormed p args n vs) ∧
    ((∀ p ∈ r.providers, s.provider ≠ some p.name) → s.options = .empty) := by
  have ho := parse_eq_ok_iff.mp hs
  constructor
  case left =>
    intro p hp hn n vs hvs
    cases ho.selected hn (Registry.lookup_of_mem hp)
    case inl h =>
      obtain ⟨_, _, _, hsuffix, hsp, hl, rfl⟩ := h
      exact wellFormed_of_fits hsuffix hsp hl hvs
    case inr h => simp [h] at hvs
  case right =>
    intro hno
    refine ho.origin.resolve_left ?_
    intro ⟨_, p, _, _, hp, _, _, _, hus⟩
    exact hno p (List.mem_of_find?_eq_some hp) (hus ▸ rfl)

-- The provider declares switches of the driver, the reserved name and a name twice. A repeated switch has no values,
-- and a repeated value keeps its places.
theorem parse_wellFormed_of_shadowing :
    let p : Provider := {
      name := "sim",
      usage := {
        summary := "sim [OPTIONS]"
        options := [
          { name := "verbose", short := some 'v', multiple := true },
          { name := "define", short := some 'D', valueName := some "K", multiple := true },
          .value "help" "TOPIC" "", .switch "__args" ""]
        groups := [{ summary := "More", options := [.switch "define" "", .value "nocheck" "N" ""] }] }
      invoke := fun _ => { outcome := .success } }
    let r := Registry.ofProviders [p]
    let args := ["--version", "sim", "-vDb", "x", "--define", "a", "-v", "--nocheck"].map Token.ofString
    let s : Selection := {
      globals := { version := true, nocheck := true }, provider := some "sim"
      options := .ofList [("define", ["b", "a"]), ("verbose", [])], args := ["x"] }
    (ofRegistry r).parse args = .ok s ∧
    (∀ n vs, s.options.get? n = some vs → WellFormed p args n vs) := by
  intro p r args s
  have hs : (ofRegistry r).parse args = .ok s := by decide +zetaReduce
  exact ⟨hs, (parse_wellFormed hs).left p (List.mem_singleton.mpr rfl) rfl⟩

end Composition

end CompilerDriver
