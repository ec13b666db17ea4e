import CompilerDriver.Proofs.CommandLine.Grammar
/-!
The state of a reader as a record of uses.

`Records` says that a state holds exactly some uses. `Adds` is what the operations on states have in common:
each adds one use, if that keeps the uses legal, and fails otherwise.
-/
namespace CompilerDriver.CommandLine.Command

namespace State

-- The values of the options given, under the names of the options.
def entries (s : State) : List (String × List String) :=
  s.given.map fun g => (g.1.name, g.2)

variable {s : State} {o : CommandOption} {vs : List String} {n : String}

theorem has_iff : s.has o = true ↔ (Keyed.find? o.name s.entries).isSome = true := by
  simp [Keyed.isSome_find?_iff, has, entries]

theorem entries_forget : (s.forget o).entries = s.entries.filter fun e => e.1 ≠ o.name := by
  simp only [entries, forget, List.filter_map]
  rfl

theorem find?_entries_forget :
    Keyed.find? n (s.forget o).entries = if o.name = n then none else Keyed.find? n s.entries := by
  rw [entries_forget, Keyed.find?_filter fun m => decide (m ≠ o.name)]
  by_cases h : o.name = n
  case pos => simp [h]
  case neg => simp [h, Ne.symm h]

theorem find?_entries_add : Keyed.find? n (s.add o vs).entries =
    if o.name = n then some ((Keyed.find? n s.entries).getD [] ++ vs) else Keyed.find? n s.entries := by
  by_cases hh : s.has o = true
  case pos =>
    have go : ∀ gs : List (CommandOption × List String),
        Keyed.find? n ((gs.map fun g => if g.1.name = o.name then (g.1, g.2 ++ vs) else g).map
          fun g => (g.1.name, g.2)) =
        (Keyed.find? n (gs.map fun g => (g.1.name, g.2))).map fun old => if o.name = n then old ++ vs else old := by
      intro gs
      induction gs
      case nil => rfl
      case cons g gs hi =>
        simp only [List.map_cons, Keyed.find?] at hi ⊢
        by_cases hg : g.1.name = o.name
        case pos =>
          by_cases hn : o.name = n
          case pos => simp [hg, hn]
          case neg => simpa [hg, hn] using hi
        case neg =>
          by_cases hn : g.1.name = n
          case pos => simp [hn, show ¬o.name = n from fun h => hg (hn.trans h.symm), show ¬n = o.name from hn ▸ hg]
          case neg => simpa [hg, hn] using hi
    simp only [add, hh, if_true, entries, go]
    by_cases hn : o.name = n
    case pos =>
      obtain ⟨old, hold⟩ := Option.isSome_iff_exists.mp (has_iff.mp hh)
      simp only [hn, entries] at hold
      simp [hn, hold]
    case neg => simp [hn]
  case neg =>
    have hnone : Keyed.find? o.name s.entries = none := by simpa [has_iff] using hh
    simp only [add, hh, entries, List.map_append, Keyed.find?_append, Bool.false_eq_true, if_false] at hnone ⊢
    by_cases hn : o.name = n
    case pos => subst hn; simp [hnone, Keyed.find?]
    case neg => simp [hn, Keyed.find?]

theorem nodup_entries_forget (h : (s.entries.map Prod.fst).Nodup) :
    ((s.forget o).entries.map Prod.fst).Nodup :=
  entries_forget ▸ h.sublist (List.Sublist.map _ List.filter_sublist)

theorem nodup_entries_add (h : (s.entries.map Prod.fst).Nodup) :
    ((s.add o vs).entries.map Prod.fst).Nodup := by
  by_cases hh : s.has o = true
  case pos =>
    have : (s.add o vs).entries.map Prod.fst = s.entries.map Prod.fst := by
      simp only [add, hh, if_true, entries, List.map_map]
      apply List.map_congr_left
      intro g _
      simp only [Function.comp_apply]
      split <;> rfl
    exact this ▸ h
  case neg =>
    have hm : o.name ∉ s.entries.map Prod.fst := by
      rwa [has_iff, Keyed.isSome_find?_iff] at hh
    simp only [add, hh, entries, List.map_append, Bool.false_eq_true, if_false] at h hm ⊢
    exact List.concat_eq_append ▸ h.concat hm

@[simp] theorem pending_add : (s.add o vs).pending = s.pending := by
  unfold add; split <;> rfl

@[simp] theorem trailing_add : (s.add o vs).trailing = s.trailing := by
  unfold add; split <;> rfl

@[simp] theorem residual_add : (s.add o vs).residual = s.residual := by
  unfold add; split <;> rfl

end State

-- The state holds the uses, apart from what is not checked yet.
structure Records (s : State) (us : List Use) : Prop where
  nodup : (s.entries.map Prod.fst).Nodup
  find : ∀ n, Keyed.find? n s.entries = if n ∈ Use.names us then some (Use.valuesOf n us) else none
  residual : s.residual.getD [] = Use.residuals us
  legal : Legal us

namespace Records

variable {c : Command} {s : State} {us : List Use} {o : CommandOption}

theorem nil : Records {} [] :=
  ⟨.nil, fun _ => rfl, rfl, .nil⟩

-- Only what is given and the residual arguments count.
theorem congr {s' : State} (h : Records s us) (hg : s'.given = s.given) (hr : s'.residual = s.residual) :
    Records s' us where
  nodup := by simpa only [State.entries, hg] using h.nodup
  find := by simpa only [State.entries, hg] using h.find
  residual := hr ▸ h.residual
  legal := h.legal

theorem has_iff (h : Records s us) : s.has o = true ↔ o.name ∈ Use.names us := by
  rw [State.has_iff, h.find]
  split <;> simp [*]

theorem getD_find (h : Records s us) (n : String) : (Keyed.find? n s.entries).getD [] = Use.valuesOf n us := by
  rw [h.find]
  split
  case isTrue => rfl
  case isFalse hn => simp [Use.valuesOf_eq_nil hn]

end Records

-- An operation on states adds a use, and it fails on no legal one.
structure Adds (c : Command) (op : State → State × Option Fault) (u : Use) : Prop where
  records : ∀ {s us}, Records s us → (∀ v ∈ us, c.Offers v) → (op s).2 = none → Records (op s).1 (us ++ [u])
  succeeds : ∀ {s us}, Records s us → Legal (us ++ [u]) → (op s).2 = none
  pending : ∀ s, (op s).1.pending = s.pending
  trailing : ∀ s, (op s).1.trailing = s.trailing

namespace State

variable {s : State} {o : CommandOption}

-- The option can be given once more.
def isFree (s : State) (o : CommandOption) : Prop :=
  o.multiple = false → s.has o = false

theorem raise_of_isFree (h : s.isFree o) : s.raise o = ((s.forget o).add o [], none) := by
  cases hm : o.multiple
  case false => simp [raise, h hm]
  case true => simp [raise, hm]

theorem isFree_of_raise (h : (s.raise o).2 = none) : s.isFree o := by
  intro hm
  by_contra hc
  simp only [Bool.not_eq_false] at hc
  simp [raise, hm, hc] at h

theorem store_of_isFree {value : Token} {v : String} (h : s.isFree o) (hv : value.text? = some v) :
    s.store o value = (s.add o [v], none) := by
  cases hm : o.multiple
  case false => simp [store, h hm, hv]
  case true => simp [store, hm, hv]

theorem isFree_of_store {value : Token} (h : (s.store o value).2 = none) :
    s.isFree o ∧ ∃ v, value.text? = some v := by
  by_cases hf : s.isFree o
  case pos =>
    refine ⟨hf, ?_⟩
    cases hv : value.text?
    case some v => exact ⟨v, rfl⟩
    case none =>
      cases hm : o.multiple
      case false => simp [store, hm, hv, hf hm] at h
      case true => simp [store, hm, hv] at h
  case neg =>
    simp only [isFree, Classical.not_imp, Bool.not_eq_false] at hf
    simp [store, hf] at h

end State

theorem Records.isFree_iff {s : State} {us : List Use} {o : CommandOption} (h : Records s us) :
    s.isFree o ↔ (o.multiple = false → o.name ∉ Use.names us) := by
  simp only [State.isFree, ← h.has_iff, Bool.not_eq_true]

section Adds

variable {c : Command} {o : CommandOption}

theorem adds_raise (hn : (c.options.map (·.name)).Nodup) (ho : o ∈ c.options) (hv : o.takesValue = false) :
    Adds c (·.raise o) (.switch o) where
  records := by
    intro s us h hu hf
    have hfree := State.isFree_of_raise hf
    rw [State.raise_of_isFree hfree]
    constructor
    case nodup => exact State.nodup_entries_add (State.nodup_entries_forget h.nodup)
    case find =>
      intro n
      rw [State.find?_entries_add, State.find?_entries_forget, h.find]
      by_cases he : o.name = n
      case pos =>
        -- The values before are forgotten, and there were none.
        have := valuesOf_switch hn hu ho hv
        simp_all
      case neg => simp [he, Ne.symm he]
    case residual => simpa [State.forget] using h.residual
    case legal =>
      refine Legal.concat_iff.mpr ⟨h.legal, Use.isText_switch o, ?_⟩
      intro o' ho'
      cases ho'
      exact h.isFree_iff.mp hfree
  succeeds := by
    intro s us h hl
    obtain ⟨_, _, honce⟩ := Legal.concat_iff.mp hl
    rw [State.raise_of_isFree (h.isFree_iff.mpr (honce o rfl))]
  pending s := by
    simp only [State.raise]
    split <;> simp [State.forget]
  trailing s := by
    simp only [State.raise]
    split <;> simp [State.forget]

theorem adds_store (value : Token) : Adds c (·.store o value) (.value o value) where
  records := by
    intro s us h _ hf
    have ⟨hfree, v, hv⟩ := State.isFree_of_store hf
    rw [State.store_of_isFree hfree hv]
    constructor
    case nodup => exact State.nodup_entries_add h.nodup
    case find =>
      intro n
      rw [State.find?_entries_add]
      by_cases he : o.name = n
      case pos =>
        rw [h.getD_find]
        simp [he, hv]
      case neg =>
        rw [h.find]
        simp [he, Ne.symm he]
    case residual => simpa using h.residual
    case legal =>
      refine Legal.concat_iff.mpr ⟨h.legal, ?_, ?_⟩
      · intro t ht
        cases ht
        simp [hv]
      · intro o' ho'
        cases ho'
        exact h.isFree_iff.mp hfree
  succeeds := by
    intro s us h hl
    obtain ⟨_, htext, honce⟩ := Legal.concat_iff.mp hl
    obtain ⟨v, hv⟩ := Option.isSome_iff_exists.mp (htext value rfl)
    rw [State.store_of_isFree (h.isFree_iff.mpr (honce o rfl)) hv]
  pending s := by
    simp only [State.store]
    split
    · rfl
    · cases value.text? <;> simp
  trailing s := by
    simp only [State.store]
    split
    · rfl
    · cases value.text? <;> simp

end Adds

-- A run of residual arguments is recorded as a whole, which comes to recording them one by one.
theorem Records.addResidual {s : State} {us : List Use} {args : List Token} (h : Records s us)
    (hf : (s.addResidual args).2 = none) : Records (s.addResidual args).1 (us ++ args.map .residual) := by
  unfold State.addResidual at hf ⊢
  cases hm : args.mapM Token.text?
  case none => simp [hm] at hf
  case some texts =>
    obtain ⟨ht, he⟩ := Token.mapM_text?_eq_some_iff.mp hm
    constructor
    case nodup => exact h.nodup
    case find => simpa [State.entries] using h.find
    case residual => simp [h.residual, Use.residuals_residual, he]
    case legal => exact h.legal.append_residual ht

theorem State.addResidual_of_legal {s : State} {us : List Use} {args : List Token}
    (h : Legal (us ++ args.map .residual)) : (s.addResidual args).2 = none := by
  simp [addResidual, Token.mapM_text?_eq_some_iff.mpr ⟨h.residual_isSome, rfl⟩]

end CompilerDriver.CommandLine.Command
