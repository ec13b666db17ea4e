import CompilerDriver.Form.Configuration
import CompilerDriver.Proofs.Json.Containers
/-!
Every form is read back as what was written.

A form is a record whose reader fills a draft field by field, so its proof goes through the fields in the order in
which they are written. A usage holds usages: the readers of its groups have the depth that is left below it.
-/
namespace CompilerDriver

open Json (Document Reader)
open Json.Reader

namespace Json.Reader

-- A field that is left out when there is no value.
theorem Fills.fieldIf {α σ : Type} {fields : List (Field σ)} {inner : Nat} {fs : List (String × Document)} {k : String}
    {f : Field σ} {final : σ} {o : Option α} {g : α → Document} (next : Option α → σ)
    (hf : fields.find? (·.name = k) = some f) (hd : f.filled (next none) = false)
    (hr : ∀ a, (g a).depth ≤ inner → Takes (f.read (next none)) (g a) (next (some a)))
    (h : Fills fields inner fs (next o) final) :
    Fills fields inner (Document.fieldIf k (o.map g) ++ fs) (next none) final := by
  cases o
  case none => exact h
  case some a => exact .field hf hd (hr a) h

end Json.Reader

theorem CommandOption.reads (o : CommandOption) : Reads CommandOption.reader o.toDocument o := by
  refine Reads.record ⟨some o.name, o.short.map some, some o.help, o.valueName.map some, some o.multiple⟩
    (fun inner => ?_) (fun _ => rfl) ?_
  case refine_1 =>
    simp only [List.append_assoc, List.cons_append, List.nil_append]
    -- The name of a field leads to its reader, and the draft does not have the field yet: both are computed.
    refine .field rfl rfl (fun _ => (takes_string _).bind_pure) ?_
    refine .fieldIf (fun s => (⟨some o.name, s.map some, none, none, none⟩ : Draft)) rfl rfl
      (fun c _ => (takes_character c).optional.bind_pure) ?_
    refine .field rfl rfl (fun _ => (takes_string _).bind_pure) ?_
    refine .fieldIf (fun v => (⟨some o.name, o.short.map some, some o.help, v.map some, none⟩ : Draft)) rfl rfl
      (fun v _ => (takes_string v).optional.bind_pure) ?_
    exact .field rfl rfl (fun _ => (takes_boolean _).bind_pure) .done
  case refine_2 =>
    rcases o with ⟨_, _ | _, _, _ | _, _⟩
    all_goals rfl

namespace Usage

theorem toDocuments_eq_map (gs : List Usage) : toDocuments gs = gs.map toDocument := by
  induction gs
  case nil => rw [toDocuments]; rfl
  case cons g gs hi => rw [toDocuments, hi, List.map_cons]

-- Even a usage without options has a list for them.
theorem two_le_depth (u : Usage) : 2 ≤ u.toDocument.depth := by
  obtain ⟨summary, description, options, groups⟩ := u
  rw [toDocument]
  have hlist : 1 ≤ (Document.list (options.map CommandOption.toDocument)).depth := by
    rw [Document.depth]
    exact Nat.le_add_left 1 _
  refine Nat.lt_of_le_of_lt hlist (Document.depth_lt_of_mem (f := ("options", _)) ?_)
  simp

mutual

theorem reads : ∀ u : Usage, Reads reader u.toDocument u
  | ⟨summary, description, options, groups⟩ => by
    have hgroups := readsAll groups
    intro depth hdepth
    obtain ⟨n, rfl⟩ := Nat.exists_eq_add_of_le' (Nat.le_trans (two_le_depth _) hdepth)
    rw [toDocument, toDocuments_eq_map] at hdepth ⊢
    simp only [List.cons_append, List.nil_append] at hdepth ⊢
    show Takes (Reader.record (n + 2) (shape (reader n))) _ _
    refine Takes.record ⟨some summary, description.map some, some options, some groups⟩ ?_ rfl ?_ hdepth
    case refine_1 =>
      refine .field rfl rfl (fun _ => (takes_string _).bind_pure) ?_
      refine .fieldIf (fun t => (⟨some summary, t.map some, none, none⟩ : Draft)) rfl rfl
        (fun t _ => (takes_string t).optional.bind_pure) ?_
      refine .field rfl rfl (fun h => (Reads.list (fun o _ => o.reads) _ h).bind_pure) ?_
      exact .field rfl rfl (fun h => (Reads.list hgroups _ h).bind_pure) .done
    case refine_2 =>
      cases description
      all_goals rfl

theorem readsAll : ∀ gs : List Usage, ∀ g ∈ gs, Reads reader g.toDocument g
  | [] => nofun
  | g :: gs => List.forall_mem_cons.mpr ⟨reads g, readsAll gs⟩

end

end Usage

-- The directory of a manifest is not written.
theorem Manifest.reads (m : Manifest) (h : m.baseDir = none) : Reads Manifest.reader m.toDocument m := by
  rw [Manifest.toDocument, Usage.toDocuments_eq_map]
  refine Reads.record ⟨some m.name, m.usage.map some, m.description.map some, some m.command, some m.args,
    some (.ofList m.env.entries), some m.options, some m.groups⟩ (fun inner => ?_) (fun _ => rfl) ?_
  case refine_1 =>
    simp only [List.append_assoc, List.cons_append, List.nil_append]
    refine .field rfl rfl (fun _ => (takes_string _).bind_pure) ?_
    refine .fieldIf (fun t => ({ name := some m.name, usage := t.map some } : Draft)) rfl rfl
      (fun t _ => (takes_string t).optional.bind_pure) ?_
    refine .fieldIf (fun t => ({ name := some m.name, usage := m.usage.map some, description := t.map some } : Draft))
      rfl rfl (fun t _ => (takes_string t).optional.bind_pure) ?_
    refine .field rfl rfl (fun _ => (takes_string _).bind_pure) ?_
    refine .field rfl rfl (fun h => (Reads.list (fun t _ => (takes_string t).reads) _ h).bind_pure) ?_
    refine .field rfl rfl (fun h => (Reads.map (f := .text) (fun e _ => (takes_string e.2).reads) _ h).bind_pure) ?_
    refine .field rfl rfl (fun h => (Reads.list (fun o _ => o.reads) _ h).bind_pure) ?_
    exact .field rfl rfl (fun h => (Reads.list (fun g _ => g.reads) _ h).bind_pure) .done
  case refine_2 =>
    obtain ⟨_, _ | _, _ | _, _, _, _, _, _, _⟩ := m
    all_goals
      obtain rfl := h
      show some _ = _
      simp only [Keyed.ofList_entries]
      rfl

theorem UpdateSettings.reads (u : UpdateSettings) (h : u.intervalDays < 2 ^ 64) :
    Reads UpdateSettings.reader u.toDocument u := by
  refine Reads.record ⟨some u.enabled, some u.endpoint, some u.intervalDays⟩ (fun inner => ?_) (fun _ => rfl) rfl
  refine .field rfl rfl (fun _ => (takes_boolean _).bind_pure) ?_
  refine .field rfl rfl (fun _ => (takes_string _).bind_pure) ?_
  exact .field rfl rfl (fun _ => (takes_natural h).bind_pure) .done

theorem Configuration.reads (c : Configuration) (hbase : ∀ m ∈ c.providers, m.baseDir = none)
    (hdays : c.update.intervalDays < 2 ^ 64) : Reads Configuration.reader c.toDocument c := by
  refine Reads.record ⟨some c.providers, some c.providerPaths, some c.update⟩ (fun inner => ?_) (fun _ => rfl) rfl
  refine .field rfl rfl (fun h => (Reads.list (fun m hm => m.reads (hbase m hm)) _ h).bind_pure) ?_
  refine .field rfl rfl (fun h => (Reads.list (fun t _ => (takes_stringAs _ t).reads) _ h).bind_pure) ?_
  exact .field rfl rfl (fun h => (c.update.reads hdays _ h).bind_pure) .done

end CompilerDriver
