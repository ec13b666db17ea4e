import CompilerDriver.Proofs.Accepted
import CompilerDriver.Proofs.CommandLine.Reading
/-!
One spelling for each selection.

A selection that was read fits its provider's entry. Spelt with long options only, each value in one token
with its option, it is read again as it was. This holds if the residual arguments do not look like options.
-/
namespace CompilerDriver

open CommandLine Command CompilerDriver.Composition

theorem Globals.ofNames_eq_empty {given : List String} (h : ∀ n ∈ given, n ∉ names) : ofNames given = {} := by
  have hw : ∀ w : Switch, given.contains w.name = false := by
    intro w
    by_contra hc
    exact h w.name (by simpa using hc) (by cases w <;> decide)
  simp only [ofNames, hw]

namespace CommandLine.Selection

variable {s : Selection} {o : CommandOption} {os : List CommandOption} {n : String}

-- The option as it is written: once for a switch, once for each value otherwise.
def optionTexts (s : Selection) (o : CommandOption) : List String :=
  match s.options.get? o.name with
  | none => []
  | some vs => if o.takesValue then vs.map fun v => s!"--{o.name}={v}" else [s!"--{o.name}"]

theorem optionTexts_plain : s.optionTexts o.plain = s.optionTexts o := rfl

theorem optionTexts_eq_nil_iff : s.optionTexts o = [] ↔
    ¬∃ vs, s.options.get? o.name = some vs ∧ (o.takesValue = true → vs ≠ []) := by
  unfold optionTexts
  cases s.options.get? o.name
  case none => simp
  case some vs => cases o.takesValue <;> simp

-- What the option is used for when it is written in this way.
def uses (s : Selection) (o : CommandOption) : List Use :=
  match s.options.get? o.name with
  | none => []
  | some vs => if o.takesValue then vs.map fun v => .value o (.ofString v) else [.switch o]

-- The options that are selected are among those of the entry, each with as many values as it may have.
structure Fits (s : Selection) (e : Entry) : Prop where
  known : ∀ n vs, s.options.get? n = some vs → ∃ o ∈ e.options, o.name = n
  switch : ∀ o ∈ e.options, ∀ vs, s.options.get? o.name = some vs → o.takesValue = false → vs = []
  value : ∀ o ∈ e.options, ∀ vs, s.options.get? o.name = some vs → o.takesValue = true → vs ≠ []
  once : ∀ o ∈ e.options, ∀ vs, s.options.get? o.name = some vs → o.multiple = false → vs.length ≤ 1

-- An option that is written is selected, and it is used as a switch or for one of its values.
theorem of_mem_uses {u : Use} (h : u ∈ s.uses o) : ∃ vs, s.options.get? o.name = some vs ∧
    (u = .switch o ∨ ∃ v ∈ vs, u = .value o (.ofString v)) := by
  unfold uses at h
  split at h
  case h_1 => cases h
  case h_2 vs hvs =>
    refine ⟨vs, hvs, ?_⟩
    split at h
    case isTrue =>
      have ⟨v, hv, he⟩ := List.mem_map.mp h
      exact .inr ⟨v, hv, he.symm⟩
    case isFalse => exact .inl (List.mem_singleton.mp h)

theorem option?_of_mem_uses {u : Use} (h : u ∈ s.uses o) : u.option? = some o := by
  have ⟨_, _, h⟩ := of_mem_uses h
  cases h
  case inl he => exact he ▸ rfl
  case inr he =>
    have ⟨_, _, he⟩ := he
    exact he ▸ rfl

theorem name?_of_mem_uses {u : Use} (h : u ∈ s.uses o) : u.name? = some o.name := by
  rw [Use.name?, option?_of_mem_uses h, Option.map_some]

theorem isText_of_mem_uses {u : Use} (h : u ∈ s.uses o) : u.isText := by
  have ⟨_, _, h⟩ := of_mem_uses h
  cases h
  case inl he => exact he ▸ Use.isText_switch o
  case inr he =>
    have ⟨v, _, he⟩ := he
    subst he
    rintro _ ⟨⟩
    simp [Token.text?_ofString]

end CommandLine.Selection

namespace CommandLine.Legal

variable {us : List Use} {n : String}

-- An option that may not be repeated has at most one value.
theorem length_valuesOf_le (h : Legal us)
    (hm : ∀ u ∈ us, ∀ o, u.option? = some o → o.name = n → o.multiple = false) :
    (Use.valuesOf n us).length ≤ 1 := by
  have hp := h.once
  clear h
  induction us
  case nil => simp
  case cons u us hi =>
    obtain ⟨hfirst, hrest⟩ := List.pairwise_cons.mp hp
    have hm' := List.forall_mem_cons.mp hm
    cases hv : u.valueFor? n
    case none => simpa [Use.valuesOf, hv] using hi hm'.right hrest
    case some v =>
      -- The name comes with `u`, so it does not come again.
      have hnot : n ∉ Use.names us := by
        intro hn
        obtain ⟨w, hw, o, ho, he⟩ := Use.mem_names.mp hn
        have := hfirst w hw o ho (hm'.right w hw o ho he)
        rw [Use.name?_of_valueFor? hv, he] at this
        exact this rfl
      have hrest := Use.valuesOf_eq_nil hnot
      simp only [Use.valuesOf] at hrest
      simp [Use.valuesOf, hv, hrest]

theorem valuesOf_ne_nil {o : CommandOption} {t : Token} (h : Legal us) (hu : .value o t ∈ us) :
    Use.valuesOf o.name us ≠ [] := by
  have ⟨v, hv⟩ := Option.isSome_iff_exists.mp (h.text _ hu t rfl)
  exact List.ne_nil_of_mem (List.mem_filterMap.mpr ⟨_, hu, by simpa using hv⟩)

end CommandLine.Legal

namespace CommandLine.Command

variable {c : Command} {us : List Use} {o : CommandOption} {u : Use} {ts : List Token}

theorem Offers.mem (h : c.Offers u) (ho : u.option? = some o) : o ∈ c.options := by
  cases u <;> cases ho
  all_goals exact h.left

section Names

variable (hn : (c.options.map (·.name)).Nodup)
include hn

-- Every use of the name of an option is one of the option.
theorem eq_of_offers {o' : CommandOption} (hu : c.Offers u) (ho' : u.option? = some o') (ho : o ∈ c.options)
    (he : o'.name = o.name) : o' = o :=
  List.inj_on_of_nodup_map hn (hu.mem ho') ho he

theorem exists_use_of_mem (hu : ∀ u ∈ us, c.Offers u) (ho : o ∈ c.options) (hm : o.name ∈ Use.names us) :
    ∃ u ∈ us, u.option? = some o := by
  have ⟨u, hmem, o', ho', he⟩ := Use.mem_names.mp hm
  exact ⟨u, hmem, eq_of_offers hn (hu u hmem) ho' ho he ▸ ho'⟩

theorem long?_of_mem (ho : o ∈ c.options) : c.long? o.name = some o :=
  find?_eq_some_of_unique ho (decide_eq_true rfl) fun _ ho' he =>
    List.inj_on_of_nodup_map hn ho' ho (of_decide_eq_true he)

end Names

theorem long_of_mem {p : Provider} (ho : o ∈ (entryOf p).options) :
    (ofEntry (entryOf p)).Long (.ofString o.name) o := by
  rw [Long, Token.text?_ofString, Option.bind_some]
  exact long?_of_mem (nodup_ofEntry p) (List.mem_append_left _ ho)

-- After a provider's name the aliases are those of its options, since no switch of the driver has one.
theorem short?_eq_some_iff {p : Provider} {l : Char} :
    (ofEntry (entryOf p)).short? l = some o ↔ o ∈ (entryOf p).options ∧ o.short = some l := by
  have own : ∀ o ∈ (ofEntry (entryOf p)).options, o.short = some l → o ∈ (entryOf p).options := by
    intro o ho hl
    refine (List.mem_append.mp ho).resolve_right fun hg => ?_
    have ⟨w, _, he⟩ := List.mem_map.mp hg
    simp [← he, CommandOption.switch] at hl
  constructor
  case mp =>
    intro h
    have hl : o.short = some l := by simpa using List.find?_some h
    exact ⟨own o (short?_mem h) hl, hl⟩
  case mpr =>
    intro ⟨ho, hl⟩
    refine find?_eq_some_of_unique (List.mem_append_left _ ho) (decide_eq_true hl) fun o' ho' hl' => ?_
    have hl' := of_decide_eq_true hl'
    exact eq_of_short_eq (own o' ho' hl') ho hl' hl

end CommandLine.Command

namespace CommandLine.Selection

variable {s : Selection} {p : Provider} {us : List Use} {ts : List Token} {given : List String}

-- What is spelt out fits.
theorem fits_ofUses {before : Globals} (hsp : Spells (ofEntry (entryOf p)) none ts us) (hl : Legal us) :
    (ofUses before (entryOf p) us).Fits (entryOf p) := by
  have hu := hsp.offers (by simp)
  have hn := nodup_ofEntry p
  have hmem : ∀ {o}, o ∈ (entryOf p).options → o ∈ (ofEntry (entryOf p)).options := List.mem_append_left _
  have hget : ∀ n vs, (ofUses before (entryOf p) us).options.get? n = some vs →
      (n ∈ Use.names us ∧ n ∉ Globals.names) ∧ Use.valuesOf n us = vs := by
    intro n vs h
    rw [get?_ofUses] at h
    split at h
    case isTrue hi => exact ⟨hi, Option.some.inj h⟩
    case isFalse => cases h
  constructor
  case known =>
    intro n vs h
    obtain ⟨⟨hin, hng⟩, _⟩ := hget n vs h
    obtain ⟨u, hum, o, ho, he⟩ := Use.mem_names.mp hin
    exact ⟨o, mem_options_of_mem ((hu u hum).mem ho) (he ▸ hng), he⟩
  case switch =>
    intro o ho vs h hv
    exact (hget _ _ h).right ▸ valuesOf_switch hn hu (hmem ho) hv
  case value =>
    intro o ho vs h hv
    obtain ⟨⟨hin, _⟩, hvs⟩ := hget _ _ h
    obtain ⟨u, hum, huo⟩ := exists_use_of_mem hn hu (hmem ho) hin
    cases u
    case switch o' =>
      cases huo
      simp [(hu _ hum).right] at hv
    case value o' t =>
      cases huo
      exact hvs ▸ hl.valuesOf_ne_nil hum
    case residual => cases huo
  case once =>
    intro o ho vs h hm
    rw [← (hget _ _ h).right]
    refine hl.length_valuesOf_le fun u hum o' ho' he => ?_
    rw [eq_of_offers hn (hu u hum) ho' (hmem ho) he, hm]

-- No options at all fit everywhere.
theorem fits_of_empty {e : Entry} (h : s.options = .empty) : s.Fits e := by
  have hno : ∀ n vs, s.options.get? n ≠ some vs := fun n vs => by simp [h]
  exact ⟨fun n vs hs => absurd hs (hno n vs), fun _ _ vs hs => absurd hs (hno _ vs),
    fun _ _ vs hs => absurd hs (hno _ vs), fun _ _ vs hs => absurd hs (hno _ vs)⟩

-- No switch of the driver is selected as an option of a provider.
theorem Fits.get?_of_global {n : String} (hf : s.Fits (entryOf p)) (hn : n ∈ Globals.names) :
    s.options.get? n = none := by
  refine Option.eq_none_iff_forall_not_mem.mpr fun vs hvs => ?_
  have ⟨o, ho, he⟩ := hf.known n vs hvs
  exact not_mem_names_of_mem ho (he ▸ hn)

section Spelling

variable {o : CommandOption} {os : List CommandOption} (hos : ∀ o ∈ os, o ∈ (entryOf p).options)

-- One option as it is written is used as is to be expected.
theorem spells_option (ho : o ∈ (entryOf p).options) (h : Spells (ofEntry (entryOf p)) none ts us) :
    Spells (ofEntry (entryOf p)) none ((s.optionTexts o).map .ofString ++ ts) (s.uses o ++ us) := by
  have ⟨hn, he⟩ := writable_of_mem ho
  unfold optionTexts uses
  cases s.options.get? o.name
  case none => exact h
  case some vs =>
    cases hv : o.takesValue
    case false => exact .token (.switch (Token.shape_ofString_long hn he) (long_of_mem ho) hv) h
    case true =>
      simp only [if_true]
      induction vs
      case nil => exact h
      case cons v vs hi =>
        have hg := Gives.attached (Token.shape_ofString_attached he v) (long_of_mem ho) hv
        exact (Spells.token hg hi :)

include hos in
theorem spells_options (h : Spells (ofEntry (entryOf p)) none ts us) :
    Spells (ofEntry (entryOf p)) none ((os.flatMap s.optionTexts).map .ofString ++ ts)
      (os.flatMap s.uses ++ us) := by
  induction os
  case nil => exact h
  case cons o os hi =>
    have ⟨ho, hos⟩ := List.forall_mem_cons.mp hos
    simp only [List.flatMap_cons, List.map_append, List.append_assoc]
    exact spells_option ho (hi hos)

theorem spells_residual {c : Command} {args : List Token} (h : ∀ t ∈ args, t.shape = .plain) :
    Spells c none args (args.map .residual) := by
  induction args
  case nil => exact .done
  case cons t args hi =>
    have ⟨ht, hargs⟩ := List.forall_mem_cons.mp h
    exact .token (.residual ht) (hi hargs)

-- The uses of the options are legal, since those of one option are and no two options have one name.
theorem legal_uses (hf : s.Fits (entryOf p)) : Legal ((entryOf p).options.flatMap s.uses) := by
  have hn : ((entryOf p).options.map (·.name)).Nodup := options_entryOf p ▸ nodup_kept
  constructor
  case once =>
    refine List.pairwise_flatMap.mpr ⟨?_, ?_⟩
    · intro o ho
      unfold uses
      cases hvs : s.options.get? o.name
      case none => exact .nil
      case some vs =>
        cases hv : o.takesValue
        case false => exact List.pairwise_singleton ..
        case true =>
          simp only [if_true]
          refine List.pairwise_map.mpr ?_
          cases hm : o.multiple
          case false =>
            match vs, hf.once o ho vs hvs hm with
            | [], _ => exact .nil
            | [_], _ => exact List.pairwise_singleton ..
          case true =>
            refine List.pairwise_of_forall ?_
            rintro _ _ _ ⟨⟩ hm'
            simp [hm] at hm'
    · refine (List.pairwise_map.mp hn).imp ?_
      intro o₁ o₂ hne u hu v hv o hvo _ hname
      rw [option?_of_mem_uses hv] at hvo
      rw [name?_of_mem_uses hu] at hname
      cases hvo
      exact hne (Option.some.inj hname)
  case text =>
    intro u hu
    obtain ⟨_, _, hu⟩ := List.mem_flatMap.mp hu
    exact isText_of_mem_uses hu

-- What the entry's options and the residual arguments are used for.
def allUses (s : Selection) (e : Entry) : List Use :=
  e.options.flatMap s.uses ++ (s.args.map .ofString).map .residual

theorem mem_names_allUses (hf : s.Fits (entryOf p)) {n : String} :
    n ∈ Use.names (s.allUses (entryOf p)) ↔ (s.options.get? n).isSome = true := by
  simp only [allUses, Use.names_append, Use.names_residual, List.append_nil]
  constructor
  case mp =>
    intro hn
    obtain ⟨u, hu, o, ho, he⟩ := Use.mem_names.mp hn
    obtain ⟨o', _, hu⟩ := List.mem_flatMap.mp hu
    cases (option?_of_mem_uses hu).symm.trans ho
    obtain ⟨vs, hvs, _⟩ := of_mem_uses hu
    simp [← he, hvs]
  case mpr =>
    intro hn
    obtain ⟨vs, hvs⟩ := Option.isSome_iff_exists.mp hn
    obtain ⟨o, ho, he⟩ := hf.known n vs hvs
    subst he
    suffices hu : ∃ u, u ∈ s.uses o by
      obtain ⟨u, hu⟩ := hu
      exact Use.mem_names.mpr ⟨u, List.mem_flatMap.mpr ⟨o, ho, hu⟩, o, option?_of_mem_uses hu, rfl⟩
    cases hv : o.takesValue
    case false => exact ⟨.switch o, by simp [uses, hvs, hv]⟩
    case true =>
      obtain ⟨v, hmem⟩ := List.exists_mem_of_ne_nil vs (hf.value o ho vs hvs hv)
      exact ⟨.value o (.ofString v), by simpa [uses, hvs, hv] using ⟨v, hmem, rfl⟩⟩

theorem valuesOf_uses {vs : List String} (hf : s.Fits (entryOf p)) (ho : o ∈ (entryOf p).options)
    (hvs : s.options.get? o.name = some vs) : Use.valuesOf o.name (s.uses o) = vs := by
  simp only [uses, hvs]
  cases hv : o.takesValue
  case false =>
    rw [hf.switch o ho vs hvs hv]
    rfl
  case true => simp [Use.valuesOf, List.filterMap_map, Function.comp_def, Token.text?_ofString]

theorem valuesOf_uses_of_ne {n : String} (h : o.name ≠ n) : Use.valuesOf n (s.uses o) = [] := by
  refine Use.valuesOf_eq_nil fun hn => ?_
  have ⟨u, hu, o', ho', he⟩ := Use.mem_names.mp hn
  cases (option?_of_mem_uses hu).symm.trans ho'
  exact h he

theorem valuesOf_allUses {n : String} {vs : List String} (hf : s.Fits (entryOf p))
    (hvs : s.options.get? n = some vs) : Use.valuesOf n (s.allUses (entryOf p)) = vs := by
  have ⟨o, ho, he⟩ := hf.known n vs hvs
  subst he
  have hn : ((entryOf p).options.map (·.name)).Nodup := options_entryOf p ▸ nodup_kept
  have hflat : Use.valuesOf o.name ((entryOf p).options.flatMap s.uses) =
      (entryOf p).options.flatMap fun x => Use.valuesOf o.name (s.uses x) := List.filterMap_flatMap
  rw [allUses, Use.valuesOf_append, Use.valuesOf_residual, List.append_nil, hflat,
    flatMap_eq_of_nodup hn ho fun x hx => valuesOf_uses_of_ne hx, valuesOf_uses hf ho hvs]

theorem residuals_allUses (s : Selection) (e : Entry) : Use.residuals (s.allUses e) = s.args := by
  have hnone : Use.residuals (e.options.flatMap s.uses) = [] := by
    refine List.filterMap_eq_nil_iff.mpr fun u hu => ?_
    have ⟨o, _, hu⟩ := List.mem_flatMap.mp hu
    have := option?_of_mem_uses hu
    cases u
    case residual => cases this
    all_goals rfl
  rw [allUses, Use.residuals_append, hnone, Use.residuals_ofString, List.nil_append]

-- The uses select what they were made from.
theorem ofUses_allUses (hf : s.Fits (entryOf p)) :
    ofUses {} (entryOf p) (s.allUses (entryOf p)) = { s with globals := {}, provider := some p.name } := by
  have hnot : ∀ n ∈ Use.names (s.allUses (entryOf p)), n ∉ Globals.names := by
    intro n hn hg
    simp [mem_names_allUses hf, hf.get?_of_global hg] at hn
  have hg : Globals.or {} (.ofNames (Use.names (s.allUses (entryOf p)))) = {} := by
    rw [Globals.ofNames_eq_empty hnot]
    rfl
  have ho : (ofUses {} (entryOf p) (s.allUses (entryOf p))).options = s.options := by
    apply Keyed.ext_get?
    intro n
    rw [get?_ofUses]
    cases hvs : s.options.get? n
    case none => simp [mem_names_allUses hf, hvs]
    case some vs =>
      have hn := (mem_names_allUses hf (n := n)).mpr (by simp [hvs])
      rw [if_pos ⟨hn, hnot n hn⟩, valuesOf_allUses hf hvs]
  simp only [ofUses] at ho ⊢
  rw [hg, residuals_allUses, ho]
  rfl

-- A selection that fits is read again as it was, apart from the switches of the driver.
theorem selectEntry_texts (hf : s.Fits (entryOf p)) (ha : ∀ a ∈ s.args, (Token.ofString a).shape = .plain) :
    selectEntry [] (entryOf p) (((entryOf p).options.flatMap s.optionTexts ++ s.args).map .ofString) =
      .ok { s with globals := {}, provider := some p.name } := by
  refine (selectEntry_eq_ok_iff (nodup_ofEntry p)).mpr ⟨s.allUses (entryOf p), ?_, ?_, ?_⟩
  · rw [List.map_append]
    exact spells_options (fun _ => id) (spells_residual (List.forall_mem_map.mpr ha))
  · exact (legal_uses hf).append_ofString s.args
  · exact (ofUses_allUses hf).symm

end Spelling

end CommandLine.Selection

end CompilerDriver
