import CompilerDriver.CommandLine.Selection
import Mathlib.Data.List.Nodup
import Mathlib.Data.List.Pairwise
/-!
What is accepted of the options that a provider declares.

The accepted options have distinct names, none of them a name of the driver's own switches, and distinct aliases.
Apart from their aliases they are declared options, and they yield what all declared options yield unless a taken
name comes again.
-/
namespace CompilerDriver

-- The option without its alias.
def CommandOption.plain (o : CommandOption) : CommandOption :=
  { o with short := none }

theorem CommandOption.defect?_plain {o : CommandOption} (h : o.defect? = none) : o.plain.defect? = none := by
  have ⟨hn, hl, hr, _⟩ := o.defect?_eq_none_iff.mp h
  exact o.plain.defect?_eq_none_iff.mpr ⟨hn, hl, hr, nofun⟩

-- The name of an option without defect can be written behind two dashes.
theorem CommandOption.writable {o : CommandOption} (h : o.defect? = none) : o.name ≠ "" ∧ '=' ∉ o.name.toList := by
  have ⟨hn, hlong, _⟩ := o.defect?_eq_none_iff.mp h
  refine ⟨hn, ?_⟩
  simp only [CommandOption.isLongName, Bool.and_eq_true, Bool.not_eq_true'] at hlong
  simpa using hlong.left.right

-- What is found is the only element that fits.
theorem find?_eq_some_of_unique {α : Type} {f : α → Bool} {l : List α} {a : α} (ha : a ∈ l) (hf : f a = true)
    (hu : ∀ b ∈ l, f b = true → b = a) : l.find? f = some a := by
  cases h : l.find? f
  case none => exact absurd hf (List.find?_eq_none.mp h a ha)
  case some b => rw [hu b (List.mem_of_find?_eq_some h) (List.find?_some h)]

namespace Composition

variable {provider : String} {t : Taken} {o : CommandOption} {os : List CommandOption}

-- What one option comes to: it is dropped and takes nothing, or it is kept apart from its alias and takes
-- its name.
inductive Accepts (t : Taken) (o : CommandOption) : Pruned (Option CommandOption) → Prop
  | drop {ws} (h : o.defect? ≠ none ∨ o.name ∈ t.names) : Accepts t o ⟨none, t, ws⟩
  | keep {o' t' ws} (hd : o.defect? = none) (hn : o.name ∉ t.names) (hd' : o'.defect? = none)
      (hp : o'.plain = o.plain) (ht : t'.names = o.name :: t.names) : Accepts t o ⟨some o', t', ws⟩

theorem accepts_accept (provider : String) (t : Taken) (o : CommandOption) :
    Accepts t o (accept provider t o) := by
  unfold accept
  split
  case h_1 d hd => exact .drop <| .inl (by simp [hd])
  case h_2 hd =>
    split
    case isTrue hn => exact .drop <| .inr hn
    case isFalse hn =>
      split
      case h_1 => exact .keep hd hn hd rfl rfl
      case h_2 =>
        split
        case isTrue => exact .keep hd hn (CommandOption.defect?_plain hd) rfl rfl
        case isFalse => exact .keep hd hn hd rfl rfl

-- Going through a list takes up its first option in one of two ways.
theorem pruneOptions_cons (provider : String) (t : Taken) (o : CommandOption) (os : List CommandOption) :
    (pruneOptions provider t (o :: os)).kept = (pruneOptions provider t os).kept ∧
        (o.defect? ≠ none ∨ o.name ∈ t.names) ∨
    ∃ o' t', (pruneOptions provider t (o :: os)).kept = o' :: (pruneOptions provider t' os).kept ∧
      o.defect? = none ∧ o.name ∉ t.names ∧ o'.defect? = none ∧ o'.plain = o.plain ∧
        t'.names = o.name :: t.names := by
  have h := accepts_accept provider t o
  simp only [pruneOptions]
  generalize accept provider t o = p at h ⊢
  cases h
  case drop h => exact .inl ⟨rfl, h⟩
  case keep o' t' _ hd hn hd' hp ht => exact .inr ⟨o', t', rfl, hd, hn, hd', hp, ht⟩

theorem name_of_plain_eq {o o' : CommandOption} (h : o'.plain = o.plain) : o'.name = o.name := by
  have h := congrArg CommandOption.name h
  exact h

-- A kept option is usable, and its name was free.
theorem of_mem_kept (h : o ∈ (pruneOptions provider t os).kept) : o.defect? = none ∧ o.name ∉ t.names := by
  induction os generalizing t
  case nil => cases h
  case cons x xs hi =>
    cases pruneOptions_cons provider t x xs
    case inl hk => exact hi (hk.left ▸ h)
    case inr hk =>
      have ⟨x', t', hk, _, hn, hd', hp, ht⟩ := hk
      rw [hk] at h
      cases List.mem_cons.mp h
      case inl he => exact he ▸ ⟨hd', name_of_plain_eq hp ▸ hn⟩
      case inr h =>
        have ⟨hd, hnot⟩ := hi h
        simp only [ht, List.mem_cons, not_or] at hnot
        exact ⟨hd, hnot.right⟩

theorem nodup_kept : ((pruneOptions provider t os).kept.map (·.name)).Nodup := by
  induction os generalizing t
  case nil => exact .nil
  case cons x xs hi =>
    cases pruneOptions_cons provider t x xs
    case inl hk => exact hk.left ▸ hi
    case inr hk =>
      have ⟨x', t', hk, _, _, _, hp, ht⟩ := hk
      rw [hk, List.map_cons]
      refine List.nodup_cons.mpr ⟨fun hm => ?_, hi⟩
      have ⟨y, hy, he⟩ := List.mem_map.mp hm
      have := (of_mem_kept hy).right
      simp [ht, he, name_of_plain_eq hp] at this

-- An alias is kept only if it is free, and then it is taken.
theorem accept_shorts (provider : String) (t : Taken) (o : CommandOption) :
    (accept provider t o).taken.shorts = ((accept provider t o).kept.bind (·.short)).toList ++ t.shorts ∧
      ∀ l, (accept provider t o).kept.bind (·.short) = some l → l ∉ t.shorts := by
  unfold accept
  split
  case h_1 => simp
  case h_2 =>
    split
    case isTrue => simp
    case isFalse =>
      split
      case h_1 hs => simp [Taken.add, hs]
      case h_2 l hs =>
        split
        case isTrue => simp [Taken.add]
        case isFalse hl => simpa [Taken.add, hs] using hl

-- The aliases that are kept are distinct, and they were free.
theorem nodup_shorts_kept : ((pruneOptions provider t os).kept.filterMap (·.short)).Nodup ∧
    ∀ l ∈ (pruneOptions provider t os).kept.filterMap (·.short), l ∉ t.shorts := by
  induction os generalizing t
  case nil => simp [pruneOptions]
  case cons x xs hi =>
    have ⟨ht, hfree⟩ := accept_shorts provider t x
    obtain ⟨hn, hnot⟩ := hi (t := (accept provider t x).taken)
    simp only [ht, List.mem_append, not_or] at hnot
    have hk : ∀ ks : List CommandOption, ((accept provider t x).kept.toList ++ ks).filterMap (·.short) =
        ((accept provider t x).kept.bind (·.short)).toList ++ ks.filterMap (·.short) := by
      intro ks
      cases (accept provider t x).kept
      case none => rfl
      case some x' => cases h : x'.short <;> simp [h]
    rw [pruneOptions, hk]
    constructor
    · refine List.nodup_append.mpr ⟨?_, hn, ?_⟩
      · cases (accept provider t x).kept.bind (·.short) <;> simp
      · rintro l hl _ hl' rfl
        exact (hnot l hl').left hl
    · intro l hl
      cases List.mem_append.mp hl
      case inl hl => exact hfree l (Option.mem_toList.mp hl)
      case inr hl => exact (hnot l hl).right

-- An option of the list whose name is taken before it, by `names` or by an option further ahead.
def Again (names : List String) (os : List CommandOption) (o : CommandOption) : Prop :=
  ∃ pre post, os = pre ++ o :: post ∧ (o.name ∈ names ∨ o.name ∈ pre.map (·.name))

theorem again_cons {names : List String} {x : CommandOption} : Again names (x :: os) o ↔
    o = x ∧ x.name ∈ names ∨ Again (x.name :: names) os o := by
  constructor
  case mp =>
    intro ⟨pre, post, he, hm⟩
    cases pre
    case nil =>
      simp only [List.nil_append, List.cons.injEq, List.map_nil, List.not_mem_nil, or_false] at he hm
      exact .inl ⟨he.left.symm, he.left ▸ hm⟩
    case cons y pre =>
      simp only [List.cons_append, List.cons.injEq] at he
      refine .inr ⟨pre, post, he.right, ?_⟩
      simpa [he.left, or_assoc, or_left_comm] using hm
  case mpr =>
    intro h
    cases h
    case inl h =>
      obtain ⟨he, hm⟩ := h
      exact ⟨[], os, by simp [he], .inl (he ▸ hm)⟩
    case inr h =>
      obtain ⟨pre, post, he, hm⟩ := h
      refine ⟨x :: pre, post, by simp [he], ?_⟩
      simpa [or_assoc, or_left_comm] using hm

-- A name that is in use already changes nothing.
theorem again_cons_names {names : List String} {n : String} (h : n ∈ names) :
    Again (n :: names) os o ↔ Again names os o := by
  have hm : ∀ m, m ∈ n :: names ↔ m ∈ names := by
    intro m
    rw [List.mem_cons, or_iff_right_of_imp]
    rintro rfl
    exact h
  simp only [Again, hm]

section Emitting

variable {α : Type} {f : CommandOption → List α} (hf : ∀ o, f o.plain = f o)
include hf

theorem eq_of_plain_eq {o o' : CommandOption} (h : o'.plain = o.plain) : f o' = f o := by
  rw [← hf o', h, hf o]

-- What the kept options yield is part of what all options yield.
theorem sublist_flatMap_kept :
    (pruneOptions provider t os).kept.flatMap f |>.Sublist (os.flatMap f) := by
  induction os generalizing t
  case nil => exact .slnil
  case cons x xs hi =>
    cases pruneOptions_cons provider t x xs
    case inl hk => exact hk.left ▸ hi.trans (List.sublist_append_right ..)
    case inr hk =>
      have ⟨x', t', hk, _, _, _, hp, _⟩ := hk
      rw [hk, List.flatMap_cons, List.flatMap_cons, eq_of_plain_eq hf hp]
      exact hi.append_left _

-- Among usable options the kept ones yield all exactly when no option yields anything whose name is
-- taken before it.
theorem flatMap_kept_eq_iff (hd : ∀ o ∈ os, o.defect? = none) :
    (pruneOptions provider t os).kept.flatMap f = os.flatMap f ↔ ∀ o, Again t.names os o → f o = [] := by
  induction os generalizing t
  case nil => simp [pruneOptions, Again]
  case cons x xs hi =>
    simp only [List.forall_mem_cons] at hd
    simp only [again_cons, List.flatMap_cons]
    cases pruneOptions_cons provider t x xs
    case inl hk =>
      have hm : x.name ∈ t.names := hk.right.resolve_left (not_not_intro hd.left)
      rw [hk.left]
      constructor
      case mp =>
        -- What is kept yields no more than what comes after `x`, so there is no room for `x`.
        intro he
        have hlen : ((pruneOptions provider t xs).kept.flatMap f).length ≤ (xs.flatMap f).length :=
          (sublist_flatMap_kept hf).length_le
        have hx : f x = [] := by
          rw [he, List.length_append] at hlen
          exact List.eq_nil_of_length_eq_zero (by omega)
        rw [hx, List.nil_append] at he
        intro o ho
        cases ho
        case inl ho => exact ho.left ▸ hx
        case inr ho => exact (hi hd.right).mp he o (again_cons_names hm |>.mp ho)
      case mpr =>
        intro h
        rw [h x (.inl ⟨rfl, hm⟩), List.nil_append]
        exact (hi hd.right).mpr fun o ho => h o (.inr (again_cons_names hm |>.mpr ho))
    case inr hk =>
      obtain ⟨x', t', hk, _, hn, _, hp, ht⟩ := hk
      rw [hk, List.flatMap_cons, eq_of_plain_eq hf hp, List.append_cancel_left_eq, hi hd.right, ht]
      simp [hn]

end Emitting

-- A name's only source is the option of that name.
theorem flatMap_eq_of_nodup {α : Type} {f : CommandOption → List α} (hn : (os.map (·.name)).Nodup)
    (ho : o ∈ os) (hf : ∀ x, x.name ≠ o.name → f x = []) : os.flatMap f = f o := by
  induction os
  case nil => cases ho
  case cons x xs hi =>
    have ⟨hx, hn⟩ := List.nodup_cons.mp hn
    rw [List.flatMap_cons]
    cases List.mem_cons.mp ho
    case inl he =>
      subst he
      have : xs.flatMap f = [] := by
        refine List.flatMap_eq_nil_iff.mpr fun y hy => hf y fun he => hx ?_
        exact List.mem_map.mpr ⟨y, hy, he⟩
      rw [this, List.append_nil]
    case inr ho =>
      rw [hf x fun he => hx (List.mem_map.mpr ⟨o, ho, he.symm⟩), List.nil_append, hi hn ho]

section Entries

variable {p : Provider} {w : Globals.Switch}

@[simp] theorem name_entryOf (p : Provider) : (entryOf p).name = p.name := rfl

-- What a provider's entry offers is what is kept of all its declared options.
theorem options_entryOf (p : Provider) :
    (entryOf p).options = (pruneOptions p.name .initial p.usage.flattened).kept := by
  rw [flattened_prune]
  rfl

theorem not_mem_names_of_mem (h : o ∈ (entryOf p).options) : o.name ∉ Globals.names :=
  (of_mem_kept (options_entryOf p ▸ h)).right

theorem writable_of_mem (h : o ∈ (entryOf p).options) : o.name ≠ "" ∧ '=' ∉ o.name.toList :=
  CommandOption.writable (of_mem_kept (options_entryOf p ▸ h)).left

-- The alias of an option that is accepted is no dash, so that it can be written behind one.
theorem ne_dash_of_mem {l : Char} (h : o ∈ (entryOf p).options) (hl : o.short = some l) : l ≠ '-' := by
  have ⟨_, _, _, hs⟩ := o.defect?_eq_none_iff.mp (of_mem_kept (options_entryOf p ▸ h)).left
  have := hs l hl
  simp only [CommandOption.isShort, Bool.and_eq_true, bne_iff_ne] at this
  exact this.left

-- An alias stands for one option only.
theorem eq_of_short_eq {o' : CommandOption} {l : Char} (ho : o ∈ (entryOf p).options)
    (ho' : o' ∈ (entryOf p).options) (hl : o.short = some l) (hl' : o'.short = some l) : o = o' := by
  have hp := List.pairwise_filterMap.mp (options_entryOf p ▸ nodup_shorts_kept.left)
  have : Std.Symm fun o o' : CommandOption => ∀ l, o.short = some l → ∀ l', o'.short = some l' → l ≠ l' :=
    ⟨fun _ _ h l hl l' hl' => (h l' hl' l hl).symm⟩
  by_contra hne
  exact hp.forall ho ho' hne l hl l hl' rfl

-- After a provider's name no two options have the same name.
theorem nodup_ofEntry (p : Provider) :
    ((CommandLine.Command.ofEntry (entryOf p)).options.map (·.name)).Nodup := by
  simp only [CommandLine.Command.ofEntry, List.map_append, Globals.names_options]
  refine List.nodup_append.mpr ⟨options_entryOf p ▸ nodup_kept, by decide, ?_⟩
  intro n hn m hm he
  obtain ⟨o, ho, hon⟩ := List.mem_map.mp hn
  exact not_mem_names_of_mem ho (hon ▸ he ▸ hm)

-- What is accepted there besides the switches of the driver are the provider's own options.
theorem mem_options_of_mem (h : o ∈ (CommandLine.Command.ofEntry (entryOf p)).options)
    (hg : o.name ∉ Globals.names) : o ∈ (entryOf p).options := by
  refine (List.mem_append.mp h).resolve_right fun h => hg ?_
  exact Globals.names_options ▸ List.mem_map_of_mem h

-- After a provider's name, too, the name of a switch of the driver stands for that switch only.
theorem eq_switch_of_name (h : o ∈ (CommandLine.Command.ofEntry (entryOf p)).options) (hn : o.name = w.name) :
    o.takesValue = false ∧ o.short = none := by
  cases List.mem_append.mp h
  case inl h => exact absurd (hn ▸ by cases w <;> decide) (not_mem_names_of_mem h)
  case inr h =>
    obtain ⟨_, _, he⟩ := List.mem_map.mp h
    exact he ▸ ⟨rfl, rfl⟩

theorem entry?_ofRegistry (r : Registry) (n : String) :
    entry? (ofRegistry r) n = (r.lookup n).map entryOf := by
  simp only [ofRegistry, entry?, Registry.lookup, List.find?_map]
  rfl

end Entries

end Composition
end CompilerDriver
