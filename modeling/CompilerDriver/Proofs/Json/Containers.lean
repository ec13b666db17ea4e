import CompilerDriver.Proofs.Json.Scalars
import Mathlib.Data.List.Forall2
/-!
Lists, maps and records are read back as they were written.

A reader of a container takes one part after the other. What it does with one part is said for whatever comes behind
that part, and the container follows by induction on its parts. A record is read into a draft, which `Fills` fills
field by field.
-/
namespace CompilerDriver.Json

namespace Document

mutual

-- The greatest number of brackets around any part of a document.
def depth : Document → Nat
  | text _ | number _ | boolean _ => 0
  | list ds => depthItems ds + 1
  | record fs => depthFields fs + 1

def depthItems : List Document → Nat
  | [] => 0
  | d :: ds => max (depth d) (depthItems ds)

def depthFields : List (String × Document) → Nat
  | [] => 0
  | (_, d) :: fs => max (depth d) (depthFields fs)

end

variable {ds : List Document} {fs : List (String × Document)} {n : Nat}

theorem depthItems_le_iff : depthItems ds ≤ n ↔ ∀ d ∈ ds, d.depth ≤ n := by
  induction ds
  case nil => simp [depthItems]
  case cons d ds hi => rw [depthItems, Nat.max_le, hi, List.forall_mem_cons]

theorem depthFields_le_iff : depthFields fs ≤ n ↔ ∀ f ∈ fs, f.2.depth ≤ n := by
  induction fs
  case nil => simp [depthFields]
  case cons f fs hi => rw [depthFields, Nat.max_le, hi, List.forall_mem_cons]

theorem depth_lt_of_mem {f : String × Document} (h : f ∈ fs) : f.2.depth < (record fs).depth := by
  rw [depth]
  exact Nat.lt_succ_of_le (depthFields_le_iff.mp (Nat.le_refl _) f h)

end Document

namespace Reader

open Document (quoted newline writeItems writeFields)
open Text (bind_of_eq pure_eq get_bind)

variable {α β : Type} {r : Reader α} {s blanks rest : List Char} {c : Char} {x : α} {xs : List α} {d : Document}
variable {ds : List Document} {steps level : Nat} {first : Bool}

section Separators

-- What stands before a part of a container.
def separator (first : Bool) : List Char := if first then [] else [',']

theorem isBlank_of_mem_newline : ∀ b ∈ newline level, isBlank b = true := by
  intro b hb
  rcases List.mem_cons.mp hb with rfl | hb
  · rfl
  · rw [List.eq_of_mem_replicate hb]; rfl

theorem ends_comma : Ends (',' :: s) := ⟨rfl, by simp, rfl⟩

theorem ends_newline : Ends (newline level ++ s) := ⟨rfl, by simp [newline], rfl⟩

end Separators

section Items

theorem hasItem_eq_true (hb : ∀ b ∈ blanks, isBlank b = true) (hc : isBlank c = false) (hcomma : c ≠ ',')
    (hend : c ≠ ']') : hasItem first (separator first ++ (blanks ++ c :: s)) = .ok (true, c :: s) := by
  cases first
  case true =>
    show hasItem true (blanks ++ c :: s) = _
    rw [hasItem, bind_of_eq (peekPart_eq hb hc)]
    simp only [if_true]
    rfl
  case false =>
    show hasItem false (',' :: (blanks ++ c :: s)) = _
    rw [hasItem, bind_of_eq (peekPart_cons rfl)]
    simp only [Bool.false_eq_true, if_false]
    rw [drop_bind, List.tail_cons, bind_of_eq (peekPart_eq hb hc)]
    simp only [pure_eq]

theorem hasItem_eq_false (hb : ∀ b ∈ blanks, isBlank b = true) :
    hasItem first (blanks ++ ']' :: s) = .ok (false, ']' :: s) := by
  rw [hasItem, bind_of_eq (peekPart_eq hb rfl)]
  rfl

theorem items_nil (hb : ∀ b ∈ blanks, isBlank b = true) :
    items r (steps + 1) first (blanks ++ ']' :: rest) = .ok ([], rest) := by
  rw [items, bind_of_eq (hasItem_eq_false hb)]
  rfl

theorem items_cons (first : Bool) (level : Nat) (hr : Takes r d x) (he : Ends s)
    (h : items r steps false s = .ok (xs, rest)) :
    items r (steps + 1) first (separator first ++ (newline level ++ (d.write .pretty level ++ s))) =
      .ok (x :: xs, rest) := by
  obtain ⟨c, cs, hcs, hblank, _, hcomma, hend⟩ := exists_write_eq_cons d level
  have hitem := hr level [] s (List.forall_mem_nil _) he
  rw [hcs, List.nil_append, List.cons_append] at hitem
  rw [hcs, List.cons_append, items, bind_of_eq (hasItem_eq_true isBlank_of_mem_newline hblank hcomma hend), if_pos rfl,
    bind_of_eq hitem, bind_of_eq h]
  rfl

-- The items of a list, and all that follows: with the first item of the list, or behind it.
def itemsText (level : Nat) (rest : List Char) : Bool → List Document → List Char
  | first, [] => (if first then [] else newline level) ++ ']' :: rest
  | first, d :: ds =>
    separator first ++ (newline (level + 1) ++ (d.write .pretty (level + 1) ++ itemsText level rest false ds))

theorem writeItems_append :
    writeItems .pretty level ds ++ (newline level ++ ']' :: rest) = itemsText level rest false ds := by
  induction ds
  case nil => rfl
  case cons d ds hi =>
    rw [writeItems, itemsText, ← hi]
    simp only [List.append_assoc, List.cons_append]
    rfl

theorem write_list : Document.write .pretty level (.list ds) ++ rest = '[' :: itemsText level rest true ds := by
  cases ds
  case nil => rw [Document.write]; rfl
  case cons d ds =>
    rw [Document.write, itemsText, ← writeItems_append]
    simp only [List.append_assoc, List.cons_append]
    rfl

theorem ends_itemsText : Ends (itemsText level rest false ds) := by
  cases ds
  case nil => exact ends_newline
  case cons => exact ends_comma

theorem length_le_itemsText : ds.length ≤ (itemsText level rest first ds).length := by
  induction ds generalizing first
  case nil => exact Nat.zero_le _
  case cons d ds hi =>
    have := @hi false
    simp only [itemsText, newline, List.length_append, List.length_cons]
    omega

theorem items_itemsText (h : List.Forall₂ (Takes r) ds xs) (hsteps : ds.length ≤ steps) :
    items r (steps + 1) first (itemsText level rest first ds) = .ok (xs, rest) := by
  induction h generalizing steps first
  case nil =>
    cases first
    case true => exact items_nil (List.forall_mem_nil _)
    case false => exact items_nil isBlank_of_mem_newline
  case cons hd _ hi =>
    cases steps
    case zero => cases hsteps
    case succ => exact items_cons first (level + 1) hd ends_itemsText (hi (Nat.le_of_succ_le_succ hsteps))

theorem Takes.list {item : Nat → Reader α} {inner : Nat} (h : List.Forall₂ (Takes (item inner)) ds xs) :
    Takes (Reader.list (inner + 1) item) (.list ds) xs := by
  intro level blanks rest hb _
  rw [write_list, Reader.list, bind_of_eq (peekValue_eq hb rfl), if_pos rfl, nested, drop_bind,
    List.tail_cons, get_bind]
  exact items_itemsText h length_le_itemsText

end Items

section Fields

variable {k : String} {fs : List (String × Document)} {σ : Type}

theorem hasField_eq_true (first : Bool) (hb : ∀ b ∈ blanks, isBlank b = true) :
    hasField first (separator first ++ (blanks ++ '"' :: s)) = .ok (true, '"' :: s) := by
  cases first
  case true =>
    show hasField true (blanks ++ '"' :: s) = _
    rw [hasField, bind_of_eq (peekPart_eq hb rfl)]
    rfl
  case false =>
    show hasField false (',' :: (blanks ++ '"' :: s)) = _
    rw [hasField, bind_of_eq (peekPart_cons rfl)]
    show (drop >>= fun _ => _) _ = _
    rw [drop_bind, List.tail_cons, bind_of_eq (peekPart_eq hb rfl)]
    rfl

theorem hasField_eq_false (hb : ∀ b ∈ blanks, isBlank b = true) :
    hasField first (blanks ++ '\x7d' :: s) = .ok (false, '\x7d' :: s) := by
  rw [hasField, bind_of_eq (peekPart_eq hb rfl)]
  rfl

theorem colon_eq : colon (':' :: s) = .ok ((), s) := by
  rw [colon, bind_of_eq (peekPart_cons rfl)]
  rfl

-- A field as it stands in an object, in front of `s`.
def fieldText (level : Nat) (k : String) (d : Document) (s : List Char) : List Char :=
  newline level ++ (quoted k ++ ([':', ' '] ++ (d.write .pretty level ++ s)))

theorem hasField_fieldText (first : Bool) : hasField first (separator first ++ fieldText level k d s) =
    .ok (true, quoted k ++ (':' :: ([' '] ++ (d.write .pretty level ++ s)))) := by
  rw [fieldText, quoted_append, quoted_append]
  exact hasField_eq_true first isBlank_of_mem_newline

theorem fieldName_quoted : fieldName (quoted k ++ s) = .ok (k, s) := by
  rw [fieldName, quoted_append, drop_bind]
  exact stringRest_eq k

theorem Takes.value (hr : Takes r d x) (he : Ends s) : r ([' '] ++ (d.write .pretty level ++ s)) = .ok (x, s) :=
  hr level [' '] s (List.forall_mem_singleton.mpr rfl) he

theorem mapFields_nil (hb : ∀ b ∈ blanks, isBlank b = true) :
    mapFields r (steps + 1) first (blanks ++ '\x7d' :: rest) = .ok ([], rest) := by
  rw [mapFields, bind_of_eq (hasField_eq_false hb)]
  rfl

theorem mapFields_cons {es : List (String × α)} (first : Bool) (hr : Takes r d x) (he : Ends s)
    (h : mapFields r steps false s = .ok (es, rest)) :
    mapFields r (steps + 1) first (separator first ++ fieldText level k d s) = .ok ((k, x) :: es, rest) := by
  rw [mapFields, bind_of_eq (hasField_fieldText first), if_pos rfl, bind_of_eq fieldName_quoted, bind_of_eq colon_eq,
    bind_of_eq (hr.value he), bind_of_eq h]
  rfl

theorem recordFields_nil {fields : List (Field σ)} {draft : σ} (hb : ∀ b ∈ blanks, isBlank b = true) :
    recordFields fields (steps + 1) first draft (blanks ++ '\x7d' :: rest) = .ok (draft, rest) := by
  rw [recordFields, bind_of_eq (hasField_eq_false hb)]
  rfl

theorem recordFields_cons {fields : List (Field σ)} {f : Field σ} {draft next final : σ} (first : Bool)
    (hf : fields.find? (·.name = k) = some f) (hd : f.filled draft = false) (hr : Takes (f.read draft) d next)
    (he : Ends s) (h : recordFields fields steps false next s = .ok (final, rest)) :
    recordFields fields (steps + 1) first draft (separator first ++ fieldText level k d s) = .ok (final, rest) := by
  rw [recordFields, bind_of_eq (hasField_fieldText first), if_pos rfl, bind_of_eq fieldName_quoted]
  simp only [hf, hd, Bool.false_eq_true, if_false]
  rw [bind_of_eq colon_eq, bind_of_eq (hr.value he)]
  exact h

-- The fields of an object, and all that follows: with the first field of the object, or behind it.
def fieldsText (level : Nat) (rest : List Char) : Bool → List (String × Document) → List Char
  | first, [] => (if first then [] else newline level) ++ '\x7d' :: rest
  | first, (k, d) :: fs => separator first ++ fieldText (level + 1) k d (fieldsText level rest false fs)

theorem writeFields_append :
    writeFields .pretty level fs ++ (newline level ++ '\x7d' :: rest) = fieldsText level rest false fs := by
  induction fs
  case nil => rfl
  case cons f fs hi =>
    rw [writeFields, fieldsText, ← hi]
    simp only [List.append_assoc, List.cons_append]
    rfl

theorem write_record : Document.write .pretty level (.record fs) ++ rest = '\x7b' :: fieldsText level rest true fs := by
  cases fs
  case nil => rw [Document.write]; rfl
  case cons f fs =>
    rw [Document.write, fieldsText, ← writeFields_append]
    simp only [List.append_assoc, List.cons_append]
    rfl

theorem ends_fieldsText : Ends (fieldsText level rest false fs) := by
  cases fs
  case nil => exact ends_newline
  case cons => exact ends_comma

theorem length_le_fieldsText : fs.length ≤ (fieldsText level rest first fs).length := by
  induction fs generalizing first
  case nil => exact Nat.zero_le _
  case cons f fs hi =>
    obtain ⟨k, d⟩ := f
    have := @hi false
    simp only [fieldsText, fieldText, newline, List.length_append, List.length_cons]
    omega

theorem mapFields_fieldsText {es : List (String × α)}
    (h : List.Forall₂ (fun f e => f.1 = e.1 ∧ Takes r f.2 e.2) fs es) (hsteps : fs.length ≤ steps) :
    mapFields r (steps + 1) first (fieldsText level rest first fs) = .ok (es, rest) := by
  induction h generalizing steps first
  case nil =>
    cases first
    case true => exact mapFields_nil (List.forall_mem_nil _)
    case false => exact mapFields_nil isBlank_of_mem_newline
  case cons f e fs es hf _ hi =>
    obtain ⟨k, d⟩ := f
    obtain ⟨_, x⟩ := e
    obtain ⟨rfl, hr⟩ := hf
    cases steps
    case zero => cases hsteps
    case succ => exact mapFields_cons first hr ends_fieldsText (hi (Nat.le_of_succ_le_succ hsteps))

theorem Takes.map {value : Nat → Reader α} {inner : Nat} {es : List (String × α)}
    (h : List.Forall₂ (fun f e => f.1 = e.1 ∧ Takes (value inner) f.2 e.2) fs es) :
    Takes (Reader.map (inner + 1) value) (.record fs) es := by
  intro level blanks rest hb _
  rw [write_record, Reader.map, bind_of_eq (peekValue_eq hb rfl), if_pos rfl, nested, drop_bind,
    List.tail_cons, get_bind]
  exact mapFields_fieldsText h length_le_fieldsText

-- Fields that are read in turn fill a draft, as long as `inner` brackets are enough for each.
inductive Fills (fields : List (Field σ)) (inner : Nat) : List (String × Document) → σ → σ → Prop
  | done {draft : σ} : Fills fields inner [] draft draft
  | field {k : String} {d : Document} {fs : List (String × Document)} {f : Field σ} {draft next final : σ}
      (hf : fields.find? (·.name = k) = some f) (hd : f.filled draft = false)
      (hr : d.depth ≤ inner → Takes (f.read draft) d next) (h : Fills fields inner fs next final) :
      Fills fields inner ((k, d) :: fs) draft final

section Record

variable {fields : List (Field σ)} {draft final : σ} {inner : Nat}

theorem recordFields_fieldsText (h : Fills fields inner fs draft final) (hdepth : ∀ f ∈ fs, f.2.depth ≤ inner)
    (hsteps : fs.length ≤ steps) :
    recordFields fields (steps + 1) first draft (fieldsText level rest first fs) = .ok (final, rest) := by
  induction h generalizing steps first
  case done =>
    cases first
    case true => exact recordFields_nil (List.forall_mem_nil _)
    case false => exact recordFields_nil isBlank_of_mem_newline
  case field hf hd hr _ hi =>
    have ⟨hfirst, hrest⟩ := List.forall_mem_cons.mp hdepth
    cases steps
    case zero => cases hsteps
    case succ =>
      exact recordFields_cons first hf hd (hr hfirst) ends_fieldsText (hi hrest (Nat.le_of_succ_le_succ hsteps))

theorem Takes.record {shape : Shape σ α} (draft : σ) (h : Fills (shape.fields inner) inner fs shape.blank draft)
    (hm : missing? (shape.fields inner) draft = none) (hx : shape.finish draft = some x)
    (hdepth : (Document.record fs).depth ≤ inner + 1) : Takes (Reader.record (inner + 1) shape) (.record fs) x := by
  intro level blanks rest hb _
  replace hdepth := Document.depthFields_le_iff.mp (Nat.le_of_succ_le_succ hdepth)
  have hlength : fs.length ≤ (fieldsText level rest true fs).length := length_le_fieldsText
  rw [write_record, Reader.record, bind_of_eq (peekValue_eq hb rfl)]
  show nested _ _ _ = _
  rw [nested, drop_bind, List.tail_cons, get_bind, bind_of_eq (recordFields_fieldsText h hdepth hlength)]
  simp only [hm, hx]
  rfl

end Record

end Fields

-- The reader takes a document if it may open as many brackets as there are in it.
def Reads (r : Nat → Reader α) (d : Document) (x : α) : Prop :=
  ∀ depth, d.depth ≤ depth → Takes (r depth) d x

theorem Takes.reads (h : Takes r d x) : Reads (fun _ => r) d x := fun _ _ => h

theorem Reads.list {item : Nat → Reader α} {f : α → Document} (h : ∀ x ∈ xs, Reads item (f x) x) :
    Reads (Reader.list · item) (.list (xs.map f)) xs := by
  intro depth hdepth
  obtain ⟨inner, rfl⟩ := Nat.exists_eq_add_one_of_ne_zero (Nat.ne_zero_of_lt hdepth)
  have hitems := Document.depthItems_le_iff.mp (Nat.le_of_succ_le_succ hdepth)
  refine Takes.list (List.forall₂_map_left_iff.mpr (List.forall₂_same.mpr fun x hx => ?_))
  exact h x hx inner (hitems _ (List.mem_map_of_mem hx))

theorem Reads.map {value : Nat → Reader α} {f : α → Document} {es : List (String × α)}
    (h : ∀ e ∈ es, Reads value (f e.2) e.2) :
    Reads (Reader.map · value) (.record (es.map fun e => (e.1, f e.2))) es := by
  intro depth hdepth
  obtain ⟨inner, rfl⟩ := Nat.exists_eq_add_one_of_ne_zero (Nat.ne_zero_of_lt hdepth)
  have hfields := Document.depthFields_le_iff.mp (Nat.le_of_succ_le_succ hdepth)
  refine Takes.map (List.forall₂_map_left_iff.mpr (List.forall₂_same.mpr fun e he => ⟨rfl, ?_⟩))
  exact h e he inner (hfields _ (List.mem_map_of_mem he))

theorem Reads.record {σ : Type} {shape : Shape σ α} {fs : List (String × Document)} (draft : σ)
    (h : ∀ inner, Fills (shape.fields inner) inner fs shape.blank draft)
    (hm : ∀ inner, missing? (shape.fields inner) draft = none) (hx : shape.finish draft = some x) :
    Reads (Reader.record · shape) (.record fs) x := by
  intro depth hdepth
  obtain ⟨inner, rfl⟩ := Nat.exists_eq_add_one_of_ne_zero (Nat.ne_zero_of_lt hdepth)
  exact Takes.record draft (h inner) (hm inner) hx hdepth

-- A whole text is read, with nothing around the document.
theorem Reads.run {r : Nat → Reader α} (h : Reads r d x) {depth : Nat} (hdepth : d.depth ≤ depth) :
    Reader.run (r depth) d.pretty = .ok x := by
  have hall := h depth hdepth 0 [] [] (List.forall_mem_nil _) ⟨rfl, nofun, rfl⟩
  rw [List.nil_append, List.append_nil] at hall
  rw [Reader.run, Document.pretty, String.toList_ofList, bind_of_eq hall]
  rfl

end Reader

end CompilerDriver.Json
