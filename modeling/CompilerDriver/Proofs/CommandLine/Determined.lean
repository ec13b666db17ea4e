import CompilerDriver.Proofs.CommandLine.Root
import CompilerDriver.Proofs.CommandLine.Spelling
/-!
What the tokens after a provider's name come to.

The tokens spell out one list of uses at most. Whether the list is legal, and what it selects, depends on what
each option is given and on the residual arguments, and not on how these are interleaved.
-/
namespace CompilerDriver.CommandLine

namespace Command

variable {c : Command} {a b b' : Option CommandOption} {t : Token} {ts : List Token} {us vs : List Use}

theorem Letters.unique {ls : Token} (h : Letters c ls us b) (h' : Letters c ls vs b') : us = vs ∧ b = b' := by
  induction h generalizing vs b'
  case nil =>
    cases h'
    exact ⟨rfl, rfl⟩
  case switch ho hv _ hi =>
    cases h'
    case switch _ ho' hl =>
      cases ho.symm.trans ho'
      have ⟨hus, hb⟩ := hi hl
      exact ⟨hus ▸ rfl, hb⟩
    all_goals simp_all
  all_goals cases h' <;> simp_all

theorem Gives.unique (h : Gives c a t us b) (h' : Gives c a t vs b') : us = vs ∧ b = b' := by
  cases h
  case cluster hs hl =>
    cases h'
    case cluster hs' hl' =>
      cases hs.symm.trans hs'
      exact hl.unique hl'
    all_goals simp_all
  all_goals cases h' <;> simp_all [Long]

theorem Gives.shape_ne (h : Gives c a t us b) : t.shape ≠ .terminator := by
  cases h <;> simp_all

theorem Spells.unique (h : Spells c a ts us) (h' : Spells c a ts vs) : us = vs := by
  induction h generalizing vs
  case done =>
    cases h'
    rfl
  case token hg _ hi =>
    cases h'
    case token hg' hs =>
      have ⟨hus, hb⟩ := hg.unique hg'
      rw [hus, hi (hb ▸ hs)]
    case escape hs => exact absurd hs hg.shape_ne
  case escape hs =>
    cases h'
    case token hg' _ => exact absurd hs hg'.shape_ne
    case escape => rfl

end Command

namespace Use

-- The token that a use has for the option `n`, whether it is text or not.
def tokenFor? (n : String) : Use → Option Token
  | value o t => if o.name = n then some t else none
  | switch _ | residual _ => none

def residualToken? : Use → Option Token
  | residual t => some t
  | switch _ | value .. => none

-- The tokens that are given to the option `n` as values, in order.
def tokensOf (n : String) (us : List Use) : List Token :=
  us.filterMap (tokenFor? n)

-- The tokens that are given as residual arguments, in order.
def residualTokens (us : List Use) : List Token :=
  us.filterMap residualToken?

variable {us vs : List Use} {n : String}

theorem valuesOf_eq_filterMap (n : String) (us : List Use) :
    valuesOf n us = (tokensOf n us).filterMap Token.text? := by
  rw [valuesOf, tokensOf, List.filterMap_filterMap]
  refine List.filterMap_congr fun u _ => ?_
  cases u
  case value o t _ => by_cases he : o.name = n <;> simp [tokenFor?, he]
  all_goals rfl

theorem residuals_eq_filterMap (us : List Use) : residuals us = (residualTokens us).filterMap Token.text? := by
  rw [residuals, residualTokens, List.filterMap_filterMap]
  refine List.filterMap_congr fun u _ => ?_
  cases u <;> rfl

-- What has to be text are the values and the residual arguments.
theorem forall_isText_iff : (∀ u ∈ us, u.isText) ↔
    (∀ n, ∀ t ∈ tokensOf n us, t.text?.isSome) ∧ ∀ t ∈ residualTokens us, t.text?.isSome := by
  constructor
  case mp =>
    intro h
    constructor
    · intro n t ht
      obtain ⟨u, hu, hut⟩ := List.mem_filterMap.mp ht
      cases u
      case value o t' =>
        simp only [tokenFor?, Option.ite_none_right_eq_some, Option.some.injEq] at hut
        exact hut.right ▸ h _ hu t' rfl
      all_goals cases hut
    · intro t ht
      obtain ⟨u, hu, hut⟩ := List.mem_filterMap.mp ht
      cases u <;> cases hut
      exact h _ hu t rfl
  case mpr =>
    intro ⟨hv, hr⟩ u hu
    cases u
    case switch o => exact isText_switch o
    case value o t =>
      rintro _ ⟨⟩
      exact hv o.name t (List.mem_filterMap.mpr ⟨_, hu, by simp [tokenFor?]⟩)
    case residual t =>
      rintro _ ⟨⟩
      exact hr t (List.mem_filterMap.mpr ⟨_, hu, rfl⟩)

theorem count_names_cons (u : Use) (us : List Use) (n : String) :
    (names (u :: us)).count n = (names us).count n + if u.name? = some n then 1 else 0 := by
  cases h : u.name? <;> simp [names, h, List.count_cons]

-- The uses come to the same, apart from the switches of the driver.
structure Same (us vs : List Use) : Prop where
  tokens : ∀ n, tokensOf n us = tokensOf n vs
  residual : residualTokens us = residualTokens vs
  count : ∀ n ∉ Globals.names, (names us).count n = (names vs).count n

namespace Same

theorem symm (h : Same us vs) : Same vs us :=
  ⟨fun n => (h.tokens n).symm, h.residual.symm, fun n hn => (h.count n hn).symm⟩

theorem mem_names_iff (h : Same us vs) (hn : n ∉ Globals.names) : n ∈ names us ↔ n ∈ names vs := by
  rw [← List.count_pos_iff, h.count n hn, List.count_pos_iff]

theorem isText (h : Same us vs) (ht : ∀ u ∈ us, u.isText) : ∀ v ∈ vs, v.isText := by
  rw [forall_isText_iff] at ht ⊢
  exact ⟨fun n => h.tokens n ▸ ht.left n, h.residual ▸ ht.right⟩

end Same

end Use

namespace Command

variable {c : Command} {us vs : List Use} {o : CommandOption} (hn : (c.options.map (·.name)).Nodup)
include hn

-- All uses of the name are uses of `o`, so it is `o` that says whether there may be another one.
theorem forall_name_ne_iff (hu : ∀ u ∈ us, c.Offers u) (ho : o ∈ c.options) :
    (∀ v ∈ us, ∀ o', v.option? = some o' → o'.multiple = false → some o.name ≠ some o'.name) ↔
      (o.multiple = false → (Use.names us).count o.name = 0) := by
  rw [List.count_eq_zero, Use.mem_names]
  constructor
  case mp =>
    rintro h hm ⟨v, hv, o', ho', he⟩
    have := eq_of_offers hn (hu v hv) ho' ho he
    exact h v hv o' ho' (this ▸ hm) (he ▸ rfl)
  case mpr =>
    intro h v hv o' ho' hm he
    have he : o'.name = o.name := Option.some.inj he.symm
    have := eq_of_offers hn (hu v hv) ho' ho he
    exact h (this ▸ hm) ⟨v, hv, o', ho', he⟩

theorem pairwise_once_iff_count (hu : ∀ u ∈ us, c.Offers u) :
    (us.Pairwise fun u v => ∀ o, v.option? = some o → o.multiple = false → u.name? ≠ some o.name) ↔
      ∀ o ∈ c.options, o.multiple = false → (Use.names us).count o.name ≤ 1 := by
  induction us
  case nil => simp
  case cons u us hi =>
    obtain ⟨hu, hus⟩ := List.forall_mem_cons.mp hu
    rw [List.pairwise_cons, hi hus]
    simp only [Use.count_names_cons]
    cases ho : u.option?
    case none => simp [Use.name?, ho]
    case some o =>
      have hmem := hu.mem ho
      simp only [Use.name?, ho, Option.map_some, forall_name_ne_iff hn hus hmem, Option.some.injEq]
      constructor
      case mp =>
        rintro ⟨h, hrest⟩ o' ho' hm
        by_cases he : o.name = o'.name
        case pos =>
          cases List.inj_on_of_nodup_map hn hmem ho' he
          simp [h hm]
        case neg => simpa [he] using hrest o' ho' hm
      case mpr =>
        intro h
        refine ⟨fun hm => ?_, fun o' ho' hm => Nat.le_of_add_right_le (h o' ho' hm)⟩
        have := h o hmem hm
        rw [if_pos rfl] at this
        omega

-- Uses are legal when they are text and each option that may not be repeated is given once at most.
theorem legal_iff_count (hu : ∀ u ∈ us, c.Offers u) : Legal us ↔
    (∀ u ∈ us, u.isText) ∧ ∀ o ∈ c.options, o.multiple = false → (Use.names us).count o.name ≤ 1 := by
  rw [← pairwise_once_iff_count hn hu]
  exact ⟨fun h => ⟨h.text, h.once⟩, fun h => ⟨h.right, h.left⟩⟩

-- Whether uses are legal does not depend on how they are interleaved.
theorem legal_of_same (hu : ∀ u ∈ us, c.Offers u) (hv : ∀ v ∈ vs, c.Offers v) (h : Use.Same us vs)
    (hg : ∀ n ∈ Globals.names, (Use.names vs).count n ≤ 1) (hl : Legal us) : Legal vs := by
  have ⟨ht, hc⟩ := (legal_iff_count hn hu).mp hl
  refine (legal_iff_count hn hv).mpr ⟨h.isText ht, fun o ho hm => ?_⟩
  by_cases hon : o.name ∈ Globals.names
  case pos => exact hg _ hon
  case neg => exact h.count _ hon ▸ hc o ho hm

end Command

-- Nor does it matter for what they select.
theorem Selection.ofUses_of_same {us vs : List Use} {a b : Globals} {e : Composition.Entry} (h : Use.Same us vs)
    (hg : a.or (.ofNames (Use.names us)) = b.or (.ofNames (Use.names vs))) : ofUses a e us = ofUses b e vs := by
  have ho : (ofUses a e us).options = (ofUses b e vs).options := by
    apply Keyed.ext_get?
    intro n
    rw [get?_ofUses, get?_ofUses, Use.valuesOf_eq_filterMap, Use.valuesOf_eq_filterMap, h.tokens]
    by_cases hn : n ∈ Globals.names
    case pos => simp [hn]
    case neg => simp [h.mem_names_iff hn]
  simp only [ofUses, Use.residuals_eq_filterMap] at ho ⊢
  rw [hg, h.residual, ho]

end CompilerDriver.CommandLine

namespace CompilerDriver.Composition

open CommandLine Command

-- Once it is known what the tokens spell out, there is nothing left to read.
theorem selectEntry_eq_ok_iff_legal {given : List String} {e : Entry} {ts : List Token} {us : List Use}
    {s : Selection} (he : ((ofEntry e).options.map (·.name)).Nodup) (hsp : Spells (ofEntry e) none ts us) :
    selectEntry given e ts = .ok s ↔ Legal us ∧ s = .ofUses (.ofNames given) e us := by
  rw [selectEntry_eq_ok_iff he]
  constructor
  case mp =>
    intro ⟨vs, hvs, hl, hs⟩
    cases hsp.unique hvs
    exact ⟨hl, hs⟩
  case mpr => exact fun ⟨hl, hs⟩ => ⟨us, hsp, hl, hs⟩

end CompilerDriver.Composition
