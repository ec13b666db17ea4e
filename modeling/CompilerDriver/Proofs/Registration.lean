import CompilerDriver.Proofs.Dispatch
import Mathlib.Data.Finset.Card
import Mathlib.Data.List.Basic
/-!
What a registry keeps of the registrations that made it.

A name has the place of its first registration and the provider of its last. Everything that shows the providers, the
composed command line, its usage line and the answer to an unknown name, goes through the names in this order.
-/
namespace CompilerDriver

namespace Registry

variable {ps qs : List Provider} {p : Provider} {r r' : Registry} {name : String}

theorem ofProviders_append : ofProviders (ps ++ qs) = qs.foldl register (ofProviders ps) := by
  rw [ofProviders, List.foldl_append, ofProviders]

theorem ofProviders_concat : ofProviders (ps ++ [p]) = (ofProviders ps).register p :=
  ofProviders_append

-- A provider is found when it was registered under the name and nothing was after it.
theorem lookup_ofProviders_eq_some_iff : (ofProviders ps).lookup name = some p ↔
    p.name = name ∧ ∃ before after, ps = before ++ p :: after ∧ ∀ q ∈ after, q.name ≠ name := by
  simp only [lookup_ofProviders, List.find?_eq_some_iff_append, decide_eq_true_eq, Bool.not_eq_true',
    decide_eq_false_iff_not]
  refine and_congr_right fun _ => ⟨?_, ?_⟩
  · rintro ⟨after, before, he, hn⟩
    refine ⟨before.reverse, after.reverse, ?_, fun q hq => hn q (List.mem_reverse.mp hq)⟩
    simpa using congrArg List.reverse he
  · rintro ⟨before, after, rfl, hn⟩
    exact ⟨after.reverse, before.reverse, by simp, fun q hq => hn q (List.mem_reverse.mp hq)⟩

theorem lookup_ofProviders_eq_none_iff : (ofProviders ps).lookup name = none ↔ ∀ p ∈ ps, p.name ≠ name := by
  simp [lookup_ofProviders]

theorem mem_names_ofProviders : name ∈ (ofProviders ps).names ↔ ∃ p ∈ ps, p.name = name := by
  rw [← not_iff_not, ← lookup_eq_none_iff, lookup_ofProviders_eq_none_iff]
  simp

-- A name comes before another when it was registered before the other was.
theorem pairwise_names_ofProviders : (ofProviders ps).names.Pairwise fun a b =>
    (ps.map (·.name)).idxOf a < (ps.map (·.name)).idxOf b := by
  induction ps using List.reverseRecOn
  case nil => exact .nil
  case append_singleton ps p hi =>
    have hmem : ∀ n ∈ (ofProviders ps).names, n ∈ ps.map (·.name) := fun n hn =>
      List.mem_map.mpr (mem_names_ofProviders.mp hn)
    -- One more registration changes no place of a name that was there before it.
    have hold : (ofProviders ps).names.Pairwise fun a b =>
        ((ps ++ [p]).map (·.name)).idxOf a < ((ps ++ [p]).map (·.name)).idxOf b := by
      refine hi.imp_of_mem fun {a b} ha hb h => ?_
      rwa [List.map_append, List.idxOf_append_of_mem (hmem a ha), List.idxOf_append_of_mem (hmem b hb)]
    rw [ofProviders_concat, names_register]
    split
    case isTrue => exact hold
    case isFalse hp =>
      have hnot : p.name ∉ ps.map (·.name) := fun hm => hp (mem_names_ofProviders.mpr (List.mem_map.mp hm))
      refine List.pairwise_append.mpr ⟨hold, List.pairwise_singleton .., fun a ha b hb => ?_⟩
      obtain rfl := List.mem_singleton.mp hb
      rw [List.map_append, List.idxOf_append_of_mem (hmem a ha), List.idxOf_append_of_notMem hnot]
      exact Nat.lt_add_right _ (List.idxOf_lt_length_iff.mpr (hmem a ha))

-- The providers are told by their names, in order, and by what is found under these.
theorem getElem?_providers (i : Nat) : r.providers[i]? = r.names[i]?.bind r.lookup := by
  rw [names, List.getElem?_map]
  cases h : r.providers[i]?
  case none => rfl
  case some p => exact (lookup_of_mem (List.mem_of_getElem? h)).symm

theorem ext_lookup (hn : r.names = r'.names) (hl : ∀ n, r.lookup n = r'.lookup n) : r = r' := by
  have hp : r.providers = r'.providers := List.ext_getElem? fun i => by
    rw [getElem?_providers, getElem?_providers, hn, funext hl]
  cases r
  cases r'
  congr

-- Registering under names that are there already makes no new place.
theorem names_foldl_register (h : ∀ q ∈ qs, q.name ∈ r.names) : (qs.foldl register r).names = r.names := by
  induction qs generalizing r
  case nil => rfl
  case cons q qs hi =>
    have ⟨hq, hqs⟩ := List.forall_mem_cons.mp h
    have hr : (r.register q).names = r.names := by rw [names_register, if_pos hq]
    rw [List.foldl_cons, hi (hr ▸ hqs), hr]

theorem lookup_ofProviders_append :
    (ofProviders (ps ++ qs)).lookup name = ((ofProviders qs).lookup name).or ((ofProviders ps).lookup name) := by
  simp only [lookup_ofProviders, List.reverse_append, List.find?_append]

-- Registrations that lead to nothing but what is there already change nothing.
theorem ofProviders_append_of_lookup
    (h : ∀ n p, (ofProviders qs).lookup n = some p → (ofProviders ps).lookup n = some p) :
    ofProviders (ps ++ qs) = ofProviders ps := by
  refine ext_lookup ?names fun n => ?found
  case names =>
    rw [ofProviders_append]
    refine names_foldl_register fun q hq => ?_
    have ⟨p, hp⟩ := Option.ne_none_iff_exists'.mp fun hn => lookup_ofProviders_eq_none_iff.mp hn q hq rfl
    exact Decidable.not_not.mp fun hm => by simpa [lookup_eq_none_iff.mpr hm] using h q.name p hp
  case found =>
    rw [lookup_ofProviders_append]
    cases hq : (ofProviders qs).lookup n
    case none => rfl
    case some p => exact (h n p hq).symm

-- What a registry that was made by registering `ps` in turn can be relied on to hold and to show.
structure Keeps (ps : List Provider) (r : Registry) : Prop where
  distinct : r.names.Nodup
  registered : ∀ n, n ∈ r.names ↔ ∃ p ∈ ps, p.name = n
  ordered : r.names.Pairwise fun a b => (ps.map (·.name)).idxOf a < (ps.map (·.name)).idxOf b
  size : r.size = (ps.map (·.name)).toFinset.card
  latest : ∀ n p, r.lookup n = some p ↔
    p.name = n ∧ ∃ before after, ps = before ++ p :: after ∧ ∀ q ∈ after, q.name ≠ n
  absent : ∀ n, r.lookup n = none ↔ ∀ p ∈ ps, p.name ≠ n
  all : ∀ i : Nat, r.providers[i]? = r.names[i]?.bind r.lookup
  entries : ∀ i : Nat, (Composition.ofRegistry r).entries[i]? = (r.names[i]?.bind r.lookup).map Composition.entryOf
  usageLine : (Composition.ofRegistry r).usageLine =
    "Compiler [OPTIONS] <" ++ "|".intercalate r.names ++ "> [PROVIDER_OPTIONS]"
  known : ∀ check args name known, (r.dispatch check args).disposition = .unknownProvider name known →
    known = r.names
  again : ofProviders (ps ++ ps) = r
  absorbs : ∀ qs, (∀ n p, (ofProviders qs).lookup n = some p → r.lookup n = some p) → ofProviders (ps ++ qs) = r

theorem ofProviders_keeps (ps : List Provider) : Keeps ps (ofProviders ps) where
  distinct := (ofProviders ps).distinct
  registered _ := mem_names_ofProviders
  ordered := pairwise_names_ofProviders
  size := by
    have hnames : (ofProviders ps).names.toFinset = (ps.map (·.name)).toFinset :=
      List.toFinset.ext fun n => by simp [mem_names_ofProviders]
    have hcard : (ofProviders ps).names.toFinset.card = (ofProviders ps).names.length :=
      List.toFinset_card_of_nodup (ofProviders ps).distinct
    rw [← hnames, hcard, names, List.length_map, size]
  latest _ _ := lookup_ofProviders_eq_some_iff
  absent _ := lookup_ofProviders_eq_none_iff
  all := getElem?_providers
  entries i := by rw [Composition.ofRegistry, List.getElem?_map, getElem?_providers]
  usageLine := by
    rw [Composition.usageLine, Composition.names_ofRegistry]
    rfl
  known check args _ _ hd := (comes_dispatch (ofProviders ps) check args).known_eq hd
  again := ofProviders_append_of_lookup fun _ _ h => h
  absorbs _ := ofProviders_append_of_lookup

-- The first place, and the last provider.
example :
    let provider (name summary : String) : Provider :=
      { name, usage := .ofSummary summary, invoke := fun _ => { outcome := .success } }
    let r := ofProviders [provider "vhdl" "first", provider "c" "", provider "vhdl" "second"]
    r.names = ["vhdl", "c"] ∧ (r.lookup "vhdl").map (·.usage.summary) = some "second" := by
  decide

end Registry

end CompilerDriver
