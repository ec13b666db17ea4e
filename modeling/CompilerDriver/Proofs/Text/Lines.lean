import CompilerDriver.Proofs.Text.Cut
/-!
Lines of texts that are put together.

A text that is written with a line feed behind it shows as its `shownLines`. A text hangs if all of these but the
first are empty or indented; that is what can be written behind an indentation without leaving it.
-/
namespace CompilerDriver.Text

open File.Path

variable {l m : List Char} {s t : String}

theorem not_mem_of_mem_lines (h : t ∈ lines s) : '\n' ∉ t.toList := by
  have ⟨ls, l, hl, _⟩ := exists_cutAt_append '\n' s.toList
  have hsplit : ∀ m ∈ ls ++ [l], '\n' ∉ m := fun m hm => not_mem_of_mem_cutAt (hl ▸ hm)
  have hreturn : ∀ m ∈ ls.map dropReturn, '\n' ∉ m := by
    refine List.forall_mem_map.mpr fun m hm hn => hsplit m (List.mem_append_left _ hm) ?_
    unfold dropReturn at hn
    split at hn
    case isTrue => exact List.mem_of_mem_dropLast hn
    case isFalse => exact hn
  simp only [lines, splitLines_eq_cutAt, hl, List.dropLast_concat, List.getLast?_concat, Option.getD_some] at h
  obtain ⟨m, hm, rfl⟩ := List.mem_map.mp h
  rw [String.toList_ofList]
  split at hm
  case isTrue => exact hreturn m hm
  case isFalse =>
    cases List.mem_append.mp hm
    case inl hm => exact hreturn m hm
    case inr hm => exact hsplit m (List.mem_append_right _ hm)

theorem not_mem_of_anyBlank (h : anyBlank s = false) : '\n' ∉ s.toList := by
  intro hm
  have := List.any_eq_false.mp h '\n' hm
  exact this (by decide)

theorem not_mem_intercalate {c : Char} {sep : String} {ss : List String} (hsep : c ∉ sep.toList)
    (h : ∀ s ∈ ss, c ∉ s.toList) : c ∉ (sep.intercalate ss).toList := by
  induction ss
  case nil => simp
  case cons s ss hi =>
    have ⟨hs, hss⟩ := List.forall_mem_cons.mp h
    cases ss
    case nil => simpa using hs
    case cons =>
      rw [String.intercalate_cons_cons, String.toList_append, String.toList_append, List.mem_append, List.mem_append]
      exact fun hm => hm.elim (·.elim hs hsep) (hi hss)

-- The lines that a text shows as when it is written with a line feed behind it.
def shownLines (s : String) : List String :=
  lines (s ++ "\n")

theorem shownLines_eq (s : String) : shownLines s = (cutAt '\n' s.toList).map (String.ofList <| dropReturn ·) := by
  have h : cutAt '\n' (s ++ "\n").toList = cutAt '\n' s.toList ++ [[]] := by
    rw [String.toList_append]
    exact cutAt_separator '\n' s.toList []
  simp only [shownLines, lines, splitLines_eq_cutAt, h]
  simp

-- A text of one line shows as it is.
theorem shownLines_of_not_mem (h : '\n' ∉ s.toList) (hr : s.toList.getLast? ≠ some '\r') : shownLines s = [s] := by
  simp [shownLines_eq, cutAt_of_not_mem h, dropReturn, hr]

theorem lines_append_newline (s t : String) : lines (s ++ "\n" ++ t) = shownLines s ++ lines t := by
  have h : cutAt '\n' (s ++ "\n" ++ t).toList = cutAt '\n' s.toList ++ cutAt '\n' t.toList := by
    rw [String.toList_append, String.toList_append, List.append_assoc]
    exact cutAt_separator '\n' s.toList t.toList
  have hne := cutAt_ne_nil '\n' t.toList
  simp only [shownLines_eq, lines, splitLines_eq_cutAt, h, List.dropLast_append_of_ne_nil hne,
    List.getLast?_append_of_ne_nil _ hne, List.map_append]
  split <;> simp

-- Pieces that are written one after the other, each with a line feed behind it, show one after the other.
theorem lines_join (pieces : List String) :
    lines (String.join (pieces.map (· ++ "\n"))) = pieces.flatMap shownLines := by
  induction pieces
  case nil => rfl
  case cons s pieces hi =>
    rw [List.map_cons, String.join_cons, lines_append_newline, hi, List.flatMap_cons]

-- The line is set off by two blanks at least.
def isIndented (l : String) : Bool :=
  [' ', ' '].isPrefixOf l.toList

-- All lines but the first are empty or indented.
def Hanging (s : String) : Prop :=
  ∀ l ∈ (shownLines s).tail, l ≠ "" → isIndented l = true

-- What becomes an empty or an indented line when it ends in a line feed.
def Inside (l : List Char) : Prop :=
  l = [] ∨ l = ['\r'] ∨ [' ', ' '] <+: l

instance (l : List Char) : Decidable (Inside l) :=
  inferInstanceAs (Decidable (_ ∨ _))

theorem inside_iff : Inside l ↔
    (String.ofList (dropReturn l) ≠ "" → isIndented (String.ofList (dropReturn l)) = true) := by
  have hofList : ∀ m : List Char, (String.ofList m ≠ "" → isIndented (String.ofList m) = true) ↔
      m = [] ∨ [' ', ' '] <+: m := by
    intro m
    simp [isIndented, or_iff_not_imp_left]
  rw [hofList, Inside, dropReturn]
  split
  case isFalse h =>
    have hne : l ≠ ['\r'] := fun he => h (he ▸ rfl)
    simp [hne]
  case isTrue h =>
    obtain ⟨m, rfl⟩ := List.getLast?_eq_some_iff.mp h
    rw [List.dropLast_concat]
    -- A carriage return is no blank: it can end an indentation, but not be part of it.
    rcases m with _ | ⟨a, _ | ⟨b, m⟩⟩
    all_goals simp

theorem inside_mark_iff : Inside (l ++ '>' :: m) ↔ Inside (l ++ ['>']) := by
  rcases l with _ | ⟨a, _ | ⟨b, l⟩⟩
  all_goals simp [Inside]

theorem hanging_iff : Hanging s ↔ ∀ l ∈ (cutAt '\n' s.toList).tail, Inside l := by
  simp only [Hanging, shownLines_eq, ← List.map_tail, List.forall_mem_map, inside_iff]

instance (s : String) : Decidable (Hanging s) :=
  decidable_of_iff' _ hanging_iff

theorem hanging_append_iff_right (h : '\n' ∉ s.toList) : Hanging (s ++ t) ↔ Hanging t := by
  obtain ⟨l, ls, hl⟩ := List.exists_cons_of_ne_nil (cutAt_ne_nil '\n' t.toList)
  rw [hanging_iff, hanging_iff, String.toList_append, cutAt_append_of_not_mem h hl, hl]
  rfl

-- A text of one line hangs.
theorem hanging_of_not_mem (h : '\n' ∉ s.toList) : Hanging s := by
  rw [hanging_iff, cutAt_of_not_mem h]
  nofun

-- A mark that is no blank keeps apart what comes before it and what comes behind it.
theorem hanging_mark_iff : Hanging (s ++ ">" ++ t) ↔ Hanging (s ++ ">") ∧ Hanging t := by
  obtain ⟨ls, l, _, happend⟩ := exists_cutAt_append '\n' s.toList
  obtain ⟨m, ms, hm⟩ := List.exists_cons_of_ne_nil (cutAt_ne_nil '\n' t.toList)
  have hmark : cutAt '\n' ('>' :: t.toList) = ('>' :: m) :: ms := by simp [cutAt, hm]
  have hs : cutAt '\n' (s ++ ">").toList = ls ++ [l ++ ['>']] := by
    rw [String.toList_append]
    exact happend _ _ _ rfl
  have hst : cutAt '\n' (s ++ ">" ++ t).toList = ls ++ (l ++ '>' :: m) :: ms := by
    rw [String.toList_append, String.toList_append, List.append_assoc]
    exact happend _ _ _ hmark
  rw [hanging_iff, hanging_iff, hanging_iff, hs, hst, hm]
  cases ls
  case nil => simp
  case cons => simp [or_imp, forall_and, inside_mark_iff, and_assoc]

-- A text is inside all its lines when it hangs.
theorem forall_shownLines_iff :
    (∀ l ∈ shownLines ("  " ++ s), l ≠ "" → isIndented l = true) ↔ Hanging s := by
  obtain ⟨l, ls, hl⟩ := List.exists_cons_of_ne_nil (cutAt_ne_nil '\n' s.toList)
  have hs : cutAt '\n' ("  " ++ s).toList = (' ' :: ' ' :: l) :: ls := by
    rw [String.toList_append]
    exact cutAt_append_of_not_mem (by decide) hl
  have hfirst : Inside (' ' :: ' ' :: l) := by simp [Inside]
  rw [hanging_iff, shownLines_eq, List.forall_mem_map]
  simp only [← inside_iff]
  rw [hs, hl, List.forall_mem_cons, and_iff_right hfirst, List.tail_cons]

end CompilerDriver.Text
