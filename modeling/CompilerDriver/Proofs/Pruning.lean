import CompilerDriver.Proofs.Accepted
import Mathlib.Data.List.Forall2
/-!
What is accepted of a usage, told option by option.

Each option of the tree gets one verdict, in the order in which the tree is gone through. A verdict depends on the
option itself and on the options that were kept before it, never on those that were dropped.
-/
namespace CompilerDriver

namespace Usage

mutual

-- The shape of a usage with all its texts, without any option.
def outline : Usage → Usage
  | ⟨summary, description, _, groups⟩ => ⟨summary, description, [], outlineAll groups⟩

def outlineAll : List Usage → List Usage
  | [] => []
  | g :: gs => outline g :: outlineAll gs

end

end Usage

-- What is in use when the options `earlier` have been kept.
structure Taken.Holds (t : Taken) (earlier : List CommandOption) : Prop where
  names : ∀ n, n ∈ t.names ↔ n ∈ Globals.names ∨ n ∈ earlier.map (·.name)
  shorts : ∀ c, c ∈ t.shorts ↔ c ∈ earlier.filterMap (·.short)

namespace Taken.Holds

variable {t : Taken} {earlier : List CommandOption}

theorem initial : Holds .initial [] :=
  ⟨fun _ => by simp [Taken.initial], fun _ => by simp [Taken.initial]⟩

-- An option that is kept takes its name and its alias.
theorem add (h : t.Holds earlier) (o : CommandOption) : (t.add o).Holds (earlier ++ [o]) := by
  constructor
  case names =>
    intro n
    simp only [Taken.add, List.mem_cons, h.names, List.map_append, List.map_singleton, List.mem_append,
      List.not_mem_nil, or_false]
    rw [or_comm, or_assoc]
  case shorts =>
    intro c
    cases hs : o.short <;> simp [Taken.add, hs, h.shorts, or_comm]

end Taken.Holds

namespace Composition

-- What one option comes to: what is kept of it, and what is said about it.
structure Verdict where
  option : CommandOption
  kept? : Option CommandOption
  warning? : Option Warning

-- The option cannot be kept behind the options `earlier`.
def Barred (earlier : List CommandOption) (o : CommandOption) : Prop :=
  o.defect? ≠ none ∨ o.name ∈ Globals.names ∨ o.name ∈ earlier.map (·.name)

-- The verdict is the right one when the options `earlier` have been kept before. An option is dropped if it cannot be
-- kept, it loses its alias if one of `earlier` has it, and it stays as it is otherwise. There is one warning unless
-- it stays as it is.
structure Verdict.Just (provider : String) (earlier : List CommandOption) (v : Verdict) : Prop where
  dropped : v.kept? = none ↔ Barred earlier v.option
  cleared : ∀ o c, v.kept? = some o → v.option.short = some c → c ∈ earlier.filterMap (·.short) →
    o = { v.option with short := none } ∧ v.warning? = some (.shortTaken provider c)
  whole : ∀ o, v.kept? = some o → (∀ c, v.option.short = some c → c ∉ earlier.filterMap (·.short)) →
    o = v.option ∧ v.warning? = none
  defective : ∀ d, v.option.defect? = some d → v.warning? = some (.defective provider d)
  nameTaken : v.option.defect? = none → v.kept? = none → v.warning? = some (.nameTaken provider v.option.name)

variable {provider : String} {t : Taken} {o : CommandOption} {os earlier : List CommandOption}

namespace Verdict.Just

theorem of_defective {d : CommandOption.Defect} (hd : o.defect? = some d) :
    Just provider earlier ⟨o, none, some (.defective provider d)⟩ := by
  constructor
  case dropped => exact iff_of_true rfl (.inl (by simp [hd]))
  case defective => simp [hd]
  case nameTaken => simp [hd]
  all_goals nofun

theorem of_nameTaken (hd : o.defect? = none) (hn : o.name ∈ Globals.names ∨ o.name ∈ earlier.map (·.name)) :
    Just provider earlier ⟨o, none, some (.nameTaken provider o.name)⟩ := by
  constructor
  case dropped => exact iff_of_true rfl (.inr hn)
  case defective => simp [hd]
  case nameTaken => exact fun _ _ => rfl
  all_goals nofun

variable (hb : ¬Barred earlier o)
include hb

theorem of_cleared {c : Char} (hs : o.short = some c) (hc : c ∈ earlier.filterMap (·.short)) :
    Just provider earlier ⟨o, some { o with short := none }, some (.shortTaken provider c)⟩ := by
  constructor
  case dropped => exact iff_of_false nofun hb
  case cleared =>
    rintro _ c' ⟨⟩ hs' _
    cases hs.symm.trans hs'
    exact ⟨rfl, rfl⟩
  case whole => exact fun _ _ h => absurd hc (h c hs)
  case defective => exact fun d hd => absurd (.inl (by simp [hd])) hb
  case nameTaken => nofun

theorem of_whole (hs : ∀ c, o.short = some c → c ∉ earlier.filterMap (·.short)) :
    Just provider earlier ⟨o, some o, none⟩ := by
  constructor
  case dropped => exact iff_of_false nofun hb
  case cleared => exact fun _ c _ hc hm => absurd hm (hs c hc)
  case whole =>
    rintro _ ⟨⟩ _
    exact ⟨rfl, rfl⟩
  case defective => exact fun d hd => absurd (.inl (by simp [hd])) hb
  case nameTaken => nofun

end Verdict.Just

-- The verdict on one option is just, and what it keeps is all that comes to be in use.
theorem exists_verdict (provider : String) (h : t.Holds earlier) (o : CommandOption) :
    ∃ v : Verdict, v.option = o ∧ v.kept? = (accept provider t o).kept ∧
      v.warning?.toList = (accept provider t o).warnings ∧
      (accept provider t o).taken.Holds (earlier ++ v.kept?.toList) ∧ v.Just provider earlier := by
  have hnil : t.Holds (earlier ++ []) := earlier.append_nil.symm ▸ h
  unfold accept
  split
  case h_1 d hd => exact ⟨⟨o, none, some _⟩, rfl, rfl, rfl, hnil, .of_defective hd⟩
  case h_2 hd =>
    split
    case isTrue hn => exact ⟨⟨o, none, some _⟩, rfl, rfl, rfl, hnil, .of_nameTaken hd ((h.names _).mp hn)⟩
    case isFalse hn =>
      have hb : ¬Barred earlier o := not_or.mpr ⟨not_not_intro hd, (h.names _).not.mp hn⟩
      split
      case h_1 hs => exact ⟨_, rfl, rfl, rfl, h.add _, .of_whole hb (by simp [hs])⟩
      case h_2 c hs =>
        split
        case isTrue hc => exact ⟨_, rfl, rfl, rfl, h.add _, .of_cleared hb hs ((h.shorts c).mp hc)⟩
        case isFalse hc =>
          refine ⟨_, rfl, rfl, rfl, h.add _, .of_whole hb fun c' hs' => ?_⟩
          cases hs.symm.trans hs'
          exact (h.shorts c).not.mp hc

theorem filterMap_cons_eq {α β : Type} (f : α → Option β) (x : α) (xs : List α) :
    (x :: xs).filterMap f = (f x).toList ++ xs.filterMap f := by
  cases h : f x <;> simp [h]

-- All options of a list, the first of them behind the options `earlier`.
theorem exists_verdicts (provider : String) (h : t.Holds earlier) (os : List CommandOption) :
    ∃ vs : List Verdict, vs.map (·.option) = os ∧ vs.filterMap (·.kept?) = (pruneOptions provider t os).kept ∧
      vs.filterMap (·.warning?) = (pruneOptions provider t os).warnings ∧
      ∀ before v after, vs = before ++ v :: after →
        v.Just provider (earlier ++ before.filterMap (·.kept?)) := by
  induction os generalizing t earlier
  case nil => exact ⟨[], rfl, rfl, rfl, by simp⟩
  case cons o os hi =>
    have ⟨v, ho, hk, hw, ht, hv⟩ := exists_verdict provider h o
    have ⟨vs, hos, hks, hws, hvs⟩ := hi ht
    refine ⟨v :: vs, by rw [List.map_cons, ho, hos], ?_, ?_, ?_⟩
    · rw [filterMap_cons_eq, hk, hks, pruneOptions]
    · rw [filterMap_cons_eq, hw, hws, pruneOptions]
    · intro before v' after he
      cases before
      case nil =>
        cases he
        simpa using hv
      case cons x before =>
        cases he
        rw [filterMap_cons_eq, ← List.append_assoc]
        exact hvs before v' after rfl

mutual

theorem outline_prune (provider : String) : ∀ (t : Taken) (u : Usage),
    (prune provider t u).kept.outline = u.outline
  | t, ⟨_, _, options, groups⟩ => by
    simp only [prune, Usage.outline, outlineAll_prune provider (pruneOptions provider t options).taken groups]

theorem outlineAll_prune (provider : String) : ∀ (t : Taken) (gs : List Usage),
    Usage.outlineAll (pruneAll provider t gs).kept = Usage.outlineAll gs
  | t, [] => by rw [pruneAll]
  | t, g :: gs => by
    simp only [pruneAll, Usage.outlineAll, outline_prune provider t g,
      outlineAll_prune provider (prune provider t g).taken gs]

end

-- The second usage has no other options of its own than the first, apart from their aliases, and no other order.
def OwnLess (n n' : Usage) : Prop :=
  (n'.options.map (·.plain)).Sublist (n.options.map (·.plain))

theorem sublist_kept : ((pruneOptions provider t os).kept.map (·.plain)).Sublist (os.map (·.plain)) := by
  simpa only [List.map_eq_flatMap] using sublist_flatMap_kept (f := fun o => [o.plain]) fun _ => rfl

mutual

-- No option moves from one group to another.
theorem nodes_prune (provider : String) : ∀ (t : Taken) (u : Usage),
    List.Forall₂ OwnLess u.nodes (prune provider t u).kept.nodes
  | t, ⟨_, _, options, groups⟩ => by
    simp only [prune, Usage.nodes]
    exact .cons sublist_kept (nodesAll_prune provider (pruneOptions provider t options).taken groups)

theorem nodesAll_prune (provider : String) : ∀ (t : Taken) (gs : List Usage),
    List.Forall₂ OwnLess (Usage.nodesAll gs) (Usage.nodesAll (pruneAll provider t gs).kept)
  | t, [] => by
    simp only [pruneAll, Usage.nodesAll]
    exact .nil
  | t, g :: gs => by
    simp only [pruneAll, Usage.nodesAll]
    exact List.rel_append (nodes_prune provider t g) (nodesAll_prune provider (prune provider t g).taken gs)

end

-- What can be relied on when the usage of a provider is accepted: each option of the tree gets a just verdict, and
-- the accepted options and the warnings are what the verdicts say, in order. The names of the accepted options are
-- distinct and free, and so are their aliases. Nothing else of the tree changes.
structure Prunes (provider : String) (u : Usage) (p : Pruned Usage) : Prop where
  verdicts : ∃ vs : List Verdict, vs.map (·.option) = u.flattened ∧
    vs.filterMap (·.kept?) = p.kept.flattened ∧ vs.filterMap (·.warning?) = p.warnings ∧
    ∀ before v after, vs = before ++ v :: after → v.Just provider (before.filterMap (·.kept?))
  names : (p.kept.flattened.map (·.name)).Nodup
  shorts : (p.kept.flattened.filterMap (·.short)).Nodup
  free : ∀ o ∈ p.kept.flattened, o.name ∉ Globals.names ∧ o.name ≠ CommandOption.reservedName
  outline : p.kept.outline = u.outline
  own : List.Forall₂ OwnLess u.nodes p.kept.nodes

theorem accepted_prunes (provider : String) (u : Usage) : Prunes provider u (accepted provider u) := by
  have hflat := flattened_prune provider .initial u
  have hkept : (accepted provider u).kept.flattened = (pruneOptions provider .initial u.flattened).kept := by
    rw [hflat]
    rfl
  constructor
  case verdicts =>
    have ⟨vs, ho, hk, hw, hv⟩ := exists_verdicts provider .initial u.flattened
    refine ⟨vs, ho, hk.trans hkept.symm, ?_, by simpa using hv⟩
    rw [hw, hflat]
    rfl
  case names => exact hkept ▸ nodup_kept
  case shorts => exact hkept ▸ nodup_shorts_kept.left
  case free =>
    intro o ho
    have ⟨hd, hn⟩ := of_mem_kept (hkept ▸ ho)
    exact ⟨hn, (o.defect?_eq_none_iff.mp hd).right.right.left⟩
  case outline => exact outline_prune provider .initial u
  case own => exact nodes_prune provider .initial u

-- The first option has a defect, so its name and its alias are free for the group. The second one of the group is
-- dropped, so its alias is free for the third.
example :
    let group := { summary := "Group", options := [
      { name := "out", short := some 'o' }, { name := "out", short := some 'p' }, { name := "put", short := some 'p' },
      { name := "port", short := some 'o' }] : Usage }
    let p := accepted "sim" { summary := "sim", options := [{ name := "out", short := some '-' }], groups := [group] }
    (p.kept.options, p.kept.flattened.map fun o => (o.name, o.short)) =
      ([], [("out", some 'o'), ("put", some 'p'), ("port", none)]) ∧
    p.warnings = [.defective "sim" (.badShort "out" '-'), .nameTaken "sim" "out", .shortTaken "sim" 'o'] := by
  decide

end Composition
end CompilerDriver
