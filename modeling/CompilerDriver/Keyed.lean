/-!
Values under names, in ascending order of the names.

A `Keyed` holds each name once, so two of them with the same values under the same names are equal.
`get?_alter` says what an update does to each name.
-/
namespace CompilerDriver

/-- Values under distinct names, kept in ascending order of the names. -/
structure Keyed (α : Type) where
  entries : List (String × α)
  ascending : (entries.map Prod.fst).Pairwise (· < ·)
deriving DecidableEq

namespace Keyed

variable {α : Type}

/-- Holds nothing. -/
def empty : Keyed α := ⟨[], .nil⟩

instance : Inhabited (Keyed α) := ⟨empty⟩

/-- The value that `entries` has under `k`. -/
def find? (k : String) : List (String × α) → Option α
  | [] => none
  | (n, v) :: rest => if n = k then some v else find? k rest

/-- Puts `f` of the value under `k` in its place, where the order wants it. -/
def update (k : String) (f : Option α → α) : List (String × α) → List (String × α)
  | [] => [(k, f none)]
  | (n, v) :: rest =>
    if k < n then (k, f none) :: (n, v) :: rest
    else if k = n then (n, f (some v)) :: rest
    else (n, v) :: update k f rest

theorem lt_of_not_lt_of_ne {a b : String} (h : ¬a < b) (hne : a ≠ b) : b < a :=
  Decidable.byContradiction fun hb => hne (String.le_antisymm hb h)

theorem mem_keys_update {k n : String} {f : Option α → α} {es : List (String × α)} :
    n ∈ (update k f es).map Prod.fst ↔ n = k ∨ n ∈ es.map Prod.fst := by
  induction es with
  | nil => simp [update]
  | cons e es ih =>
    simp only [update]
    split
    · simp
    · split
      · next h => subst h; simp
      · simp only [List.map_cons, List.mem_cons, ih]
        constructor <;> rintro (h | h | h) <;> simp [h]

theorem pairwise_update {k : String} {f : Option α → α} {es : List (String × α)}
    (h : (es.map Prod.fst).Pairwise (· < ·)) : ((update k f es).map Prod.fst).Pairwise (· < ·) := by
  induction es with
  | nil => simp [update]
  | cons e es ih =>
    simp only [List.map_cons, List.pairwise_cons] at h
    simp only [update]
    split
    case isTrue hk =>
      simp only [List.map_cons, List.pairwise_cons]
      refine ⟨?_, h.1, h.2⟩
      intro n hn
      rcases List.mem_cons.1 hn with rfl | hn
      · exact hk
      · exact String.lt_trans hk (h.1 n hn)
    case isFalse hk =>
      split
      case isTrue he => simpa using h
      case isFalse he =>
        simp only [List.map_cons, List.pairwise_cons]
        refine ⟨?_, ih h.2⟩
        intro n hn
        rcases mem_keys_update.1 hn with rfl | hn
        · exact lt_of_not_lt_of_ne hk he
        · exact h.1 n hn

/-- The value under `k`. -/
def get? (m : Keyed α) (k : String) : Option α := find? k m.entries

/-- Puts `f` of the value under `k` in its place. -/
def alter (m : Keyed α) (k : String) (f : Option α → α) : Keyed α :=
  ⟨update k f m.entries, pairwise_update m.ascending⟩

/-- Puts `v` under `k`, whatever was there. -/
def insert (m : Keyed α) (k : String) (v : α) : Keyed α := m.alter k fun _ => v

/-- The names, in ascending order. -/
def keys (m : Keyed α) : List String := m.entries.map Prod.fst

/-- Something is under `k`. -/
def contains (m : Keyed α) (k : String) : Bool := (m.get? k).isSome

theorem nodup_keys (m : Keyed α) : m.keys.Nodup :=
  m.ascending.imp fun {a b} (h : a < b) (he : a = b) => String.lt_irrefl b (he ▸ h)

/-- Inserts the pairs in turn; of two with one name, the later stays. -/
def ofList (es : List (String × α)) : Keyed α :=
  es.foldl (fun m e => m.insert e.1 e.2) empty

theorem find?_eq_none {k : String} {es : List (String × α)} (h : k ∉ es.map Prod.fst) :
    find? k es = none := by
  induction es with
  | nil => rfl
  | cons e es ih =>
    simp only [List.map_cons, List.mem_cons, not_or] at h
    simp only [find?]
    rw [if_neg (Ne.symm h.1), ih h.2]

theorem find?_of_mem {e : String × α} {es : List (String × α)} (h : (es.map Prod.fst).Nodup) (he : e ∈ es) :
    find? e.1 es = some e.2 := by
  induction es with
  | nil => cases he
  | cons e' es ih =>
    simp only [List.map_cons, List.nodup_cons] at h
    rcases List.mem_cons.1 he with rfl | he
    · simp [find?]
    · have hne : e'.1 ≠ e.1 := fun hn => h.1 (hn ▸ List.mem_map_of_mem he)
      simp [find?, hne, ih h.2 he]

theorem find?_update {k j : String} {f : Option α → α} {es : List (String × α)}
    (h : (es.map Prod.fst).Pairwise (· < ·)) :
    find? j (update k f es) = if k = j then some (f (find? k es)) else find? j es := by
  induction es with
  | nil => simp [update, find?]
  | cons e es ih =>
    have ⟨n, v⟩ := e
    simp only [List.map_cons, List.pairwise_cons] at h
    simp only [update]
    split
    case isTrue hk =>
      have hnot : k ∉ (es.map Prod.fst) := fun hm => String.lt_irrefl k (String.lt_trans hk (h.1 k hm))
      have hne : n ≠ k := fun he => String.lt_irrefl k (by simp [he] at hk)
      simp only [find?, if_neg hne, find?_eq_none hnot]
    case isFalse hk =>
      split
      case isTrue he => subst he; simp only [find?]; split <;> simp_all
      case isFalse he =>
        simp only [find?, ih h.2, if_neg (Ne.symm he)]
        by_cases hj : n = j
        · subst hj; simp [he]
        · simp [hj]

/-- An update changes the value under its own name only. -/
theorem get?_alter (m : Keyed α) (k j : String) (f : Option α → α) :
    (m.alter k f).get? j = if k = j then some (f (m.get? k)) else m.get? j :=
  find?_update m.ascending

/-- Two of them with the same values under the same names are equal. -/
theorem eq_of_find?_eq : ∀ {xs ys : List (String × α)}, (xs.map Prod.fst).Pairwise (· < ·) →
    (ys.map Prod.fst).Pairwise (· < ·) → (∀ k, find? k xs = find? k ys) → xs = ys
  | [], [], _, _, _ => rfl
  | [], (n, v) :: _, _, _, h => by simpa [find?] using h n
  | (n, v) :: _, [], _, _, h => by simpa [find?] using h n
  | (n, v) :: xs, (m, w) :: ys, hx, hy, h => by
    simp only [List.map_cons, List.pairwise_cons] at hx hy
    have hxn : find? n xs = none := find?_eq_none fun hm => String.lt_irrefl n (hx.1 n hm)
    have hym : find? m ys = none := find?_eq_none fun hm => String.lt_irrefl m (hy.1 m hm)
    have hnm : n = m := by
      by_cases hn : m = n
      case pos => exact hn.symm
      case neg =>
        -- Each first name would have to come after the other.
        have h₁ : n ∈ ys.map Prod.fst := Decidable.byContradiction fun hc => by
          simpa [find?, hn, find?_eq_none hc] using h n
        have h₂ : m ∈ xs.map Prod.fst := Decidable.byContradiction fun hc => by
          simpa [find?, Ne.symm hn, find?_eq_none hc] using h m
        exact absurd (String.lt_trans (hy.1 n h₁) (hx.1 m h₂)) (String.lt_irrefl m)
    subst hnm
    have hvw : v = w := by simpa [find?] using h n
    have ht : xs = ys := eq_of_find?_eq hx.2 hy.2 fun k => by
      by_cases hk : n = k
      case pos => rw [← hk, hxn, hym]
      case neg => simpa [find?, hk] using h k
    rw [hvw, ht]

theorem ext_get? {a b : Keyed α} (h : ∀ k, a.get? k = b.get? k) : a = b := by
  have he := eq_of_find?_eq a.ascending b.ascending h
  cases a; cases b; congr

@[simp] theorem get?_empty (k : String) : (empty : Keyed α).get? k = none := rfl

/-- The value under a name after `insert`. -/
theorem get?_insert (m : Keyed α) (k j : String) (v : α) :
    (m.insert k v).get? j = if k = j then some v else m.get? j :=
  get?_alter m k j _

theorem find?_append (k : String) (xs ys : List (String × α)) :
    find? k (xs ++ ys) = (find? k xs).or (find? k ys) := by
  induction xs with
  | nil => rfl
  | cons e xs ih => simp only [List.cons_append, find?, ih]; split <;> rfl

theorem find?_reverse {k : String} {es : List (String × α)} (h : (es.map Prod.fst).Nodup) :
    find? k es.reverse = find? k es := by
  induction es with
  | nil => rfl
  | cons e es ih =>
    simp only [List.map_cons, List.nodup_cons] at h
    rw [List.reverse_cons, find?_append, ih h.2]
    by_cases he : e.1 = k
    · subst he
      simp [find?, find?_eq_none h.1]
    · simp [find?, he]

theorem find?_filter (p : String → Bool) (k : String) (es : List (String × α)) :
    find? k (es.filter fun e => p e.1) = if p k then find? k es else none := by
  induction es with
  | nil => simp [find?]
  | cons e es ih =>
    by_cases he : e.1 = k
    · subst he
      by_cases hp : p e.1 <;> simp_all [find?]
    · by_cases hp : p e.1 <;> simp_all [find?]

theorem find?_map {k : String} {f : String → α} (ns : List String) :
    find? k (ns.map fun n => (n, f n)) = if k ∈ ns then some (f k) else none := by
  induction ns with
  | nil => rfl
  | cons n ns ih => by_cases h : n = k <;> simp_all [find?, eq_comm]

/-- Of several values for one name the last one counts. -/
theorem get?_ofList (es : List (String × α)) (k : String) : (ofList es).get? k = find? k es.reverse := by
  have go : ∀ (es : List (String × α)) (m : Keyed α),
      (es.foldl (fun m e => m.insert e.1 e.2) m).get? k = (find? k es.reverse).or (m.get? k) := by
    intro es
    induction es with
    | nil => intro m; rfl
    | cons e es ih =>
      intro m
      rw [List.foldl_cons, ih, List.reverse_cons, find?_append, get?_insert, Option.or_assoc]
      by_cases h : e.1 = k <;> simp [find?, h]
  rw [ofList, go, get?_empty, Option.or_none]

/-- The entries make what they were taken from. -/
theorem ofList_entries (m : Keyed α) : ofList m.entries = m :=
  ext_get? fun k => (get?_ofList m.entries k).trans (find?_reverse m.nodup_keys)

/-- A value that only depends on its name is there under every name that is listed. -/
theorem get?_ofList_map (f : String → α) (ns : List String) (k : String) :
    (ofList (ns.map fun n => (n, f n))).get? k = if k ∈ ns then some (f k) else none := by
  rw [get?_ofList, ← List.map_reverse, find?_map]
  simp

theorem isSome_find?_iff (k : String) (es : List (String × α)) :
    (find? k es).isSome ↔ k ∈ es.map Prod.fst := by
  induction es with
  | nil => simp [find?]
  | cons e es ih =>
    simp only [List.map_cons, List.mem_cons, ← ih, find?]
    split <;> rename_i h
    · simp [h]
    · simp [Ne.symm h]

/-- A name is listed when something is under it. -/
theorem mem_keys_iff (m : Keyed α) (k : String) : k ∈ m.keys ↔ m.contains k = true :=
  (isSome_find?_iff k m.entries).symm

end Keyed
end CompilerDriver
