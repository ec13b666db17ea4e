import CompilerDriver.Proofs.CommandLine.Determined
/-!
Many wordings of one command line.

What is given after a provider's name can be written in several ways: by the long name of an option or by its
alias, with the value in the same token or in one of its own. `Writes` lists these ways. What is selected depends
neither on the way that is chosen, nor on how options and residual arguments are interleaved, nor on the side of
the provider's name on which a switch of the driver stands.
-/
namespace CompilerDriver

open CommandLine Command CompilerDriver.Composition

-- A switch of the driver as an option.
def Globals.Switch.option (w : Switch) : CommandOption :=
  .switch w.name w.text

theorem Globals.Switch.option_mem (w : Switch) : w.option ∈ options := by
  cases w <;> decide

namespace CommandLine

namespace Token

-- The token does not begin with a dash, or it is nothing but one.
def Bare (t : Token) : Prop :=
  t = [some '-'] ∨ t.head? ≠ some (some '-')

instance : DecidablePred Bare :=
  fun t => inferInstanceAs (Decidable (t = [some '-'] ∨ t.head? ≠ some (some '-')))

-- The token for the option of the alias `l`.
def ofLetter (l : Char) : Token :=
  [some '-', some l]

theorem shape_ofLetter_append {l : Char} (hl : l ≠ '-') (rest : Token) :
    (ofLetter l ++ rest).shape = .cluster (some l :: rest) := by
  simp only [ofLetter, List.cons_append, List.nil_append]
  unfold shape
  split <;> simp_all

theorem shape_ofLetter {l : Char} (hl : l ≠ '-') : (ofLetter l).shape = .cluster [some l] :=
  shape_ofLetter_append hl []

-- The value behind a long name need not be text.
theorem shape_attached {name : String} (he : '=' ∉ name.toList) (value : Token) :
    (ofString ("--" ++ name ++ "=") ++ value).shape = .long (ofString name) (some value) := by
  have h : shape (some '-' :: some '-' :: (ofString name ++ some '=' :: value)) = _ :=
    shape_of_dashes (by simp)
  rw [splitEquals_append (not_mem_ofString he)] at h
  simp only [ofString_append, List.append_assoc]
  exact h

end Token

-- The ways in which one use is written after the name of the provider of `e`.
inductive Writes (e : Entry) : List Token → Use → Prop
  | residual {t} (ht : t.Bare) : Writes e [t] (.residual t)
  | switch {o} (ho : o ∈ e.options) (hv : o.takesValue = false) :
      Writes e [.ofString ("--" ++ o.name)] (.switch o)
  | letter {o l} (ho : o ∈ e.options) (hv : o.takesValue = false) (hl : o.short = some l) :
      Writes e [.ofLetter l] (.switch o)
  | attached {o v} (ho : o ∈ e.options) (hv : o.takesValue = true) :
      Writes e [.ofString ("--" ++ o.name ++ "=") ++ v] (.value o v)
  | letterEquals {o l v} (ho : o ∈ e.options) (hv : o.takesValue = true) (hl : o.short = some l) :
      Writes e [.ofLetter l ++ some '=' :: v] (.value o v)
  | separate {o v} (ho : o ∈ e.options) (hv : o.takesValue = true) (ht : v.Bare) :
      Writes e [.ofString ("--" ++ o.name), v] (.value o v)
  | letterSeparate {o l v} (ho : o ∈ e.options) (hv : o.takesValue = true) (hl : o.short = some l)
      (ht : v.Bare) : Writes e [.ofLetter l, v] (.value o v)
  | letterAttached {o l v} (ho : o ∈ e.options) (hv : o.takesValue = true) (hl : o.short = some l)
      (hn : v ≠ []) (he : v.head? ≠ some (some '=')) : Writes e [.ofLetter l ++ v] (.value o v)
  | global (w : Globals.Switch) : Writes e [.ofSwitch w] (.switch w.option)

section Writes

variable {p : Provider} {ts rest : List Token} {u : Use} {us : List Use}

theorem long_of_switch (w : Globals.Switch) : (ofEntry (entryOf p)).Long (.ofString w.name) w.option := by
  rw [Long, Token.text?_ofString, Option.bind_some]
  exact long?_of_mem (nodup_ofEntry p) (List.mem_append_right _ w.option_mem)

-- Whichever way is chosen, the use is read off the tokens.
theorem Writes.spells (h : Writes (entryOf p) ts u) (hr : Spells (ofEntry (entryOf p)) none rest us) :
    Spells (ofEntry (entryOf p)) none (ts ++ rest) (u :: us) := by
  cases h
  case residual ht => exact .token (.residual ((Token.shape_eq_plain_iff _).mpr ht)) hr
  case switch ho hv =>
    have ⟨hn, he⟩ := writable_of_mem ho
    exact .token (.switch (Token.shape_ofString_long hn he) (long_of_mem ho) hv) hr
  case letter ho hv hl =>
    have hs := Token.shape_ofLetter (ne_dash_of_mem ho hl)
    exact .token (.cluster hs (.switch (short?_eq_some_iff.mpr ⟨ho, hl⟩) hv .nil)) hr
  case attached v ho hv =>
    have ⟨_, he⟩ := writable_of_mem ho
    exact .token (.attached (Token.shape_attached he v) (long_of_mem ho) hv) hr
  case letterEquals v ho hv hl =>
    have hs := Token.shape_ofLetter_append (ne_dash_of_mem ho hl) (some '=' :: v)
    exact .token (.cluster hs (.equals (short?_eq_some_iff.mpr ⟨ho, hl⟩) hv)) hr
  case separate ho hv ht =>
    have ⟨hn, he⟩ := writable_of_mem ho
    have hg := Gives.separate (Token.shape_ofString_long hn he) (long_of_mem ho) hv
    exact .token hg (.token (.awaited ((Token.shape_eq_plain_iff _).mpr ht)) hr)
  case letterSeparate ho hv hl ht =>
    have hs := Token.shape_ofLetter (ne_dash_of_mem ho hl)
    have hg := Gives.cluster hs (.last (short?_eq_some_iff.mpr ⟨ho, hl⟩) hv)
    exact .token hg (.token (.awaited ((Token.shape_eq_plain_iff _).mpr ht)) hr)
  case letterAttached v ho hv hl hn he =>
    have hs := Token.shape_ofLetter_append (ne_dash_of_mem ho hl) v
    exact .token (.cluster hs (.attached (short?_eq_some_iff.mpr ⟨ho, hl⟩) hv hn he)) hr
  case global w => exact .token (.switch (Token.shape_ofSwitch w) (long_of_switch w) rfl) hr

-- Units that are written one after the other are read off in their order.
theorem spells_units {units : List (List Token × Use)} (h : ∀ u ∈ units, Writes (entryOf p) u.1 u.2) :
    Spells (ofEntry (entryOf p)) none (units.flatMap Prod.fst) (units.map Prod.snd) := by
  induction units
  case nil => exact .done
  case cons u units hi =>
    have ⟨hu, hunits⟩ := List.forall_mem_cons.mp h
    exact hu.spells (hi hunits)

end Writes

namespace Command

variable {c : Command} {us : List Use} {o : CommandOption} {n : String}

-- Only an option that takes a value has tokens.
theorem tokensOf_eq_nil (hu : ∀ u ∈ us, c.Offers u) (hv : ∀ o ∈ c.options, o.name = n → o.takesValue = false) :
    Use.tokensOf n us = [] := by
  refine List.filterMap_eq_nil_iff.mpr fun u hm => ?_
  cases u
  case value o t =>
    have ⟨ho, htakes⟩ := hu _ hm
    exact if_neg fun he => by simp [hv o ho he] at htakes
  all_goals rfl

theorem count_names_eq_zero (hu : ∀ u ∈ us, c.Offers u) (ho : ∀ o ∈ c.options, o.name ≠ n) :
    (Use.names us).count n = 0 := by
  refine List.count_eq_zero.mpr fun hm => ?_
  have ⟨u, hmem, o, huo, he⟩ := Use.mem_names.mp hm
  exact ho o ((hu u hmem).mem huo) he

-- An option that takes a value is given as often as it has tokens.
theorem count_names_eq_length (hn : (c.options.map (·.name)).Nodup) (hu : ∀ u ∈ us, c.Offers u)
    (ho : o ∈ c.options) (hv : o.takesValue = true) :
    (Use.names us).count o.name = (Use.tokensOf o.name us).length := by
  induction us
  case nil => rfl
  case cons u us hi =>
    rw [List.forall_mem_cons] at hu
    have hi := hi hu.right
    simp only [Use.names, Use.tokensOf, List.filterMap_cons] at hi ⊢
    cases u
    case switch o' =>
      have hne : o'.name ≠ o.name := by
        intro he
        cases List.inj_on_of_nodup_map hn hu.left.left ho he
        simp [hu.left.right] at hv
      simp [Use.tokenFor?, hne, hi]
    case value o' t => by_cases he : o'.name = o.name <;> simp [Use.tokenFor?, he, hi]
    case residual => simpa [Use.tokenFor?] using hi

end Command

-- A command line for the provider of `e`: switches of the driver, the provider's name, and units that give
-- one use each. No switch of the driver comes twice.
structure Wording (e : Entry) where
  before : List Globals.Switch
  units : List (List Token × Use)
  written : ∀ u ∈ units, Writes e u.1 u.2
  once : ∀ w : Globals.Switch, before.count w + (Use.names (units.map Prod.snd)).count w.name ≤ 1

namespace Wording

variable {e : Entry}

def tokens (a : Wording e) : List Token :=
  a.before.map .ofSwitch ++ .ofString e.name :: a.units.flatMap Prod.fst

def uses (a : Wording e) : List Use :=
  a.units.map Prod.snd

-- The switch of the driver is set, before the provider's name or behind it.
def Sets (a : Wording e) (w : Globals.Switch) : Prop :=
  w ∈ a.before ∨ w.name ∈ Use.names a.uses

instance (a : Wording e) : DecidablePred a.Sets :=
  fun w => inferInstanceAs (Decidable (w ∈ a.before ∨ w.name ∈ Use.names a.uses))

-- The same residual arguments and, for each option with a value, the same values in the same order; each switch
-- as often, and the same switches of the driver.
structure Agrees (a b : Wording e) : Prop where
  residual : Use.residualTokens a.uses = Use.residualTokens b.uses
  values : ∀ o ∈ e.options, o.takesValue = true → Use.tokensOf o.name a.uses = Use.tokensOf o.name b.uses
  switches : ∀ o ∈ e.options, o.takesValue = false →
    (Use.names a.uses).count o.name = (Use.names b.uses).count o.name
  globals : ∀ w, a.Sets w ↔ b.Sets w

theorem Agrees.symm {a b : Wording e} (h : a.Agrees b) : b.Agrees a :=
  ⟨h.residual.symm, fun o ho hv => (h.values o ho hv).symm, fun o ho hv => (h.switches o ho hv).symm,
    fun w => (h.globals w).symm⟩

variable {p : Provider}

theorem spells (a : Wording (entryOf p)) :
    Spells (ofEntry (entryOf p)) none (a.units.flatMap Prod.fst) a.uses :=
  spells_units a.written

theorem offers (a : Wording (entryOf p)) : ∀ u ∈ a.uses, (ofEntry (entryOf p)).Offers u :=
  a.spells.offers (by simp)

theorem nodup_before (a : Wording e) : (a.before.map Globals.Switch.name).Nodup := by
  refine List.Nodup.map Globals.Switch.name_injective (List.nodup_iff_count_le_one.mpr fun w => ?_)
  exact Nat.le_of_add_right_le (a.once w)

theorem count_global_le (a : Wording e) : ∀ n ∈ Globals.names, (Use.names a.uses).count n ≤ 1 := by
  intro n hn
  have ⟨w, hw⟩ := Globals.exists_switch hn
  exact hw ▸ Nat.le_of_add_left_le (a.once w)

-- Before the provider's name or behind it, what is set is the same.
theorem isSet_iff (a : Wording e) (w : Globals.Switch) :
    ((Globals.ofNames (a.before.map Globals.Switch.name)).or (.ofNames (Use.names a.uses))).isSet w = true ↔
      a.Sets w := by
  rw [Globals.isSet_or, Globals.isSet_ofNames, Globals.isSet_ofNames, Sets,
    List.mem_map_of_injective Globals.Switch.name_injective]

-- All options count, not only those of the provider.
theorem Agrees.same {a b : Wording (entryOf p)} (h : a.Agrees b) : Use.Same a.uses b.uses where
  residual := h.residual
  tokens := by
    intro n
    by_cases hv : ∃ o ∈ (entryOf p).options, o.name = n ∧ o.takesValue = true
    case pos =>
      have ⟨o, ho, he, hv⟩ := hv
      exact he ▸ h.values o ho hv
    case neg =>
      have hv : ∀ o ∈ (ofEntry (entryOf p)).options, o.name = n → o.takesValue = false := by
        intro o ho he
        cases List.mem_append.mp ho
        case inl ho => exact Bool.eq_false_iff.mpr fun ht => hv ⟨o, ho, he, ht⟩
        case inr ho =>
          have ⟨w, _, hw⟩ := List.mem_map.mp ho
          exact hw ▸ rfl
      rw [tokensOf_eq_nil a.offers hv, tokensOf_eq_nil b.offers hv]
  count := by
    intro n hn
    by_cases ho : ∃ o ∈ (entryOf p).options, o.name = n
    case pos =>
      obtain ⟨o, ho, rfl⟩ := ho
      have hmem : o ∈ (ofEntry (entryOf p)).options := List.mem_append_left _ ho
      cases hv : o.takesValue
      case false => exact h.switches o ho hv
      case true =>
        rw [count_names_eq_length (nodup_ofEntry p) a.offers hmem hv,
          count_names_eq_length (nodup_ofEntry p) b.offers hmem hv, h.values o ho hv]
    case neg =>
      have ho : ∀ o ∈ (ofEntry (entryOf p)).options, o.name ≠ n := fun o hmem he =>
        ho ⟨o, mem_options_of_mem hmem (he ▸ hn), he⟩
      rw [count_names_eq_zero a.offers ho, count_names_eq_zero b.offers ho]

section Parsing

variable {r : Registry} (hr : ∀ p ∈ r.providers, Manifest.isToken p.name = true) (hp : p ∈ r.providers)
include hr hp

-- A wording is accepted when its uses are legal, and they are what is selected.
theorem parse_eq_ok_iff (a : Wording (entryOf p)) {s : Selection} : (ofRegistry r).parse a.tokens = .ok s ↔
    Legal a.uses ∧ s = .ofUses (.ofNames (a.before.map Globals.Switch.name)) (entryOf p) a.uses := by
  have hn : ([] ++ a.before.map Globals.Switch.name).Nodup := a.nodup_before
  rw [parse, tokens, name_entryOf, parseFrom_switches hr hp hn, List.nil_append]
  exact selectEntry_eq_ok_iff_legal (nodup_ofEntry p) a.spells

theorem parse_of_agrees {a b : Wording (entryOf p)} {s : Selection} (h : a.Agrees b)
    (hs : (ofRegistry r).parse a.tokens = .ok s) : (ofRegistry r).parse b.tokens = .ok s := by
  have ⟨hl, hs⟩ := (a.parse_eq_ok_iff hr hp).mp hs
  have hg := Globals.ext_isSet fun w => (a.isSet_iff w).trans ((h.globals w).trans (b.isSet_iff w).symm)
  have hl' := legal_of_same (nodup_ofEntry p) a.offers b.offers h.same b.count_global_le hl
  exact (b.parse_eq_ok_iff hr hp).mpr ⟨hl', hs.trans (Selection.ofUses_of_same h.same hg)⟩

-- Two wordings of the same are both rejected, or both are accepted and select the same.
theorem parse_congr {a b : Wording (entryOf p)} (h : a.Agrees b) (s : Selection) :
    (ofRegistry r).parse a.tokens = .ok s ↔ (ofRegistry r).parse b.tokens = .ok s :=
  ⟨parse_of_agrees hr hp h, parse_of_agrees hr hp h.symm⟩

end Parsing

-- A switch of the driver moves behind the provider's name, a switch behind the values, and a residual argument
-- between them.
theorem parse_congr_of_moved :
    let flat : CommandOption := { name := "flat", short := some 'f' }
    let define : CommandOption := { name := "define", short := some 'd', valueName := some "K", multiple := true }
    let p : Provider := {
      name := "sim"
      usage := { summary := "sim [OPTIONS]", options := [flat], groups := [{ summary := "", options := [define] }] }
      invoke := fun _ => { outcome := .success } }
    let r := Registry.ofProviders [p]
    let s : Selection := {
      globals := { nocheck := true }, provider := some "sim"
      options := .ofList [("flat", []), ("define", ["a=b", "-"])], args := ["x"] }
    ∃ a b : Wording (entryOf p),
      a.tokens = ["--nocheck", "sim", "-f", "-da=b", "--define", "-", "x"].map .ofString ∧
      b.tokens = ["sim", "--define=a=b", "x", "-d=-", "--nocheck", "--flat"].map .ofString ∧
      a.Agrees b ∧ (ofRegistry r).parse a.tokens = .ok s ∧ (ofRegistry r).parse b.tokens = .ok s := by
  intro flat define p r s
  let ab : Token := .ofString "a=b"
  let dash : Token := .ofString "-"
  let x : Token := .ofString "x"
  let a : Wording (entryOf p) := {
    before := [.nocheck]
    units := [([.ofLetter 'f'], .switch flat), ([.ofLetter 'd' ++ ab], .value define ab),
      ([.ofString "--define", dash], .value define dash), ([x], .residual x)]
    written := by
      simp only [List.forall_mem_cons]
      have hflat : flat ∈ (entryOf p).options := by decide +zetaReduce
      have hdefine : define ∈ (entryOf p).options := by decide +zetaReduce
      exact ⟨.letter hflat rfl rfl, .letterAttached hdefine rfl rfl (by decide) (by decide),
        .separate hdefine rfl (by decide), .residual (by decide), nofun⟩
    once := by
      intro w
      cases w <;> decide +zetaReduce }
  let b : Wording (entryOf p) := {
    before := []
    units := [([.ofString "--define=" ++ ab], .value define ab), ([x], .residual x),
      ([.ofLetter 'd' ++ some '=' :: dash], .value define dash),
      ([.ofSwitch .nocheck], .switch Globals.Switch.nocheck.option), ([.ofString "--flat"], .switch flat)]
    written := by
      simp only [List.forall_mem_cons]
      have hflat : flat ∈ (entryOf p).options := by decide +zetaReduce
      have hdefine : define ∈ (entryOf p).options := by decide +zetaReduce
      exact ⟨.attached hdefine rfl, .residual (by decide), .letterEquals hdefine rfl rfl, .global .nocheck,
        .switch hflat rfl, nofun⟩
    once := by
      intro w
      cases w <;> decide +zetaReduce }
  have h : a.Agrees b := by
    refine ⟨rfl, by decide +zetaReduce, by decide +zetaReduce, fun w => ?_⟩
    cases w <;> decide +zetaReduce
  have hr : ∀ p ∈ r.providers, Manifest.isToken p.name = true := by decide +zetaReduce
  have hs : (ofRegistry r).parse a.tokens = .ok s := by decide +zetaReduce
  exact ⟨a, b, by decide +zetaReduce, by decide +zetaReduce, h, hs,
    (parse_congr hr (List.mem_singleton.mpr rfl) h s).mp hs⟩

end Wording
end CommandLine
end CompilerDriver
