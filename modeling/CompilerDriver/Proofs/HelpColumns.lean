import CompilerDriver.Proofs.HelpText
import Mathlib.Data.List.Forall2
/-!
The column in which the help texts of a list of options begin.

The room for the signatures is measured in bytes and filled up in characters. So the help texts stand two blanks behind
the longest signature when this is one of ASCII characters, and farther to the right otherwise; a signature of several
lines takes its help text to the left.
-/
namespace CompilerDriver

namespace Text

variable {s t : String} {k : Nat}

-- The characters behind the last line feed of a text: the column of what is written after it.
def column (s : String) : Nat := (s.toList.reverse.takeWhile (· ≠ '\n')).length

-- The characters up to the last line feed of a text.
def aboveColumn (s : String) : Nat := s.length - column s

theorem column_le_length : column s ≤ s.length := by
  have h := (List.takeWhile_prefix (· ≠ '\n') (l := s.toList.reverse)).length_le
  rwa [List.length_reverse, String.length_toList] at h

theorem column_append_of_not_mem (h : '\n' ∉ t.toList) : column (s ++ t) = column s + t.length := by
  have hall : ∀ c ∈ t.toList.reverse, decide (c ≠ '\n') = true := by
    intro c hc
    refine decide_eq_true fun he => h ?_
    exact he ▸ List.mem_reverse.mp hc
  rw [column, column, String.toList_append, List.reverse_append, List.takeWhile_append_of_pos hall,
    List.length_append, List.length_reverse, String.length_toList, Nat.add_comm]

-- The text stands at the end of the line and begins in the column.
def BeginsAt (k : Nat) (t line : String) : Prop :=
  ∃ before, line = before ++ t ∧ column before = k

theorem beginsAt_append_iff : BeginsAt k t (s ++ t) ↔ column s = k := by
  constructor
  case mp =>
    rintro ⟨before, he, h⟩
    rw [String.append_left_inj] at he
    exact he ▸ h
  case mpr => exact fun h => ⟨s, rfl, h⟩

end Text

namespace CommandOption

-- What an option shows on the left does not end in a blank if the option can stand on the command line.
theorem exists_getLast?_signature {o : CommandOption} (h : o.defect? = none) :
    ∃ c, o.signature.toList.getLast? = some c ∧ Text.isBlank c = false := by
  have ⟨hne, hlong, _⟩ := o.defect?_eq_none_iff.mp h
  simp only [isLongName, Bool.and_eq_true, Bool.not_eq_true'] at hlong
  have hname := List.any_eq_false.mp hlong.right
  simp only [signature, String.toList_append, List.getLast?_append]
  cases o.multiple
  case true => exact ⟨'.', rfl, by decide⟩
  case false =>
    cases o.valueName
    case some v => exact ⟨'>', by simp [toString, List.getLast?_cons], by decide⟩
    case none =>
      have hne : o.name.toList ≠ [] := String.toList_eq_nil_iff.not.mpr hne
      obtain ⟨c, hc⟩ := Option.ne_none_iff_exists'.mp (List.getLast?_eq_none_iff.not.mpr hne)
      refine ⟨c, ?_, Bool.eq_false_iff.mpr (hname c (List.mem_of_getLast? hc))⟩
      cases o.short
      all_goals simp [toString, List.getLast?_cons, hc]

end CommandOption

namespace Help

open Text

theorem foldl_max_le_iff {xs : List Nat} {a b : Nat} : xs.foldl max a ≤ b ↔ a ≤ b ∧ ∀ x ∈ xs, x ≤ b := by
  induction xs generalizing a
  case nil => simp
  case cons x xs hi => rw [List.foldl_cons, hi, Nat.max_le, List.forall_mem_cons, and_assoc]

variable {depth k : Nat} {options : List CommandOption} {o : CommandOption} {start : CommandOption → Nat}

theorem columnWidth_le_iff : columnWidth options ≤ k ↔ ∀ o ∈ options, Utf8.size o.signature.toList ≤ k := by
  rw [columnWidth, foldl_max_le_iff, and_iff_right k.zero_le, List.forall_mem_map]

-- The characters of the longest signature.
def longest (options : List CommandOption) : Nat := (options.map (·.signature.length)).foldl max 0

theorem longest_le_iff : longest options ≤ k ↔ ∀ o ∈ options, o.signature.length ≤ k := by
  rw [longest, foldl_max_le_iff, and_iff_right k.zero_le, List.forall_mem_map]

theorem exists_length_eq_longest (h : options ≠ []) : ∃ a ∈ options, a.signature.length = longest options := by
  by_contra hno
  have hlt : ∀ o ∈ options, o.signature.length < longest options := fun o ho =>
    Nat.lt_of_le_of_ne (longest_le_iff.mp (Nat.le_refl _) o ho) fun he => hno ⟨o, ho, he⟩
  have ⟨o, ho⟩ := List.exists_mem_of_ne_nil options h
  have hpos := hlt o ho
  have hle := longest_le_iff.mpr fun o ho => Nat.le_sub_one_of_lt (hlt o ho)
  omega

theorem length_le_columnWidth (ho : o ∈ options) : o.signature.length ≤ columnWidth options := by
  have h := Utf8.length_le_size o.signature.toList
  rw [String.length_toList] at h
  exact Nat.le_trans h (columnWidth_le_iff.mp (Nat.le_refl _) o ho)

-- Bytes and characters give the same room when a signature of ASCII characters is the longest one in bytes.
theorem columnWidth_eq_longest_iff : columnWidth options = longest options ↔ ∀ o ∈ options, ∃ a ∈ options,
    (∀ c ∈ a.signature.toList, c.toNat < 0x80) ∧ Utf8.size o.signature.toList ≤ a.signature.length := by
  constructor
  case mp =>
    intro h o ho
    -- Some signature is the longest one, and it cannot have more bytes than characters.
    have ⟨a, ha, hl⟩ := exists_length_eq_longest (List.ne_nil_of_mem ho)
    have hsize : ∀ x ∈ options, Utf8.size x.signature.toList ≤ a.signature.length :=
      columnWidth_le_iff.mp (Nat.le_of_eq (h.trans hl.symm))
    exact ⟨a, ha, Utf8.ascii_of_size_le (String.length_toList ▸ hsize a ha), hsize o ho⟩
  case mpr =>
    intro h
    refine Nat.le_antisymm (columnWidth_le_iff.mpr fun o ho => ?_) (longest_le_iff.mpr fun o => length_le_columnWidth)
    have ⟨a, ha, _, hsize⟩ := h o ho
    exact Nat.le_trans hsize (longest_le_iff.mp (Nat.le_refl _) a ha)

-- What stands before a help text is as wide as the indentation, the room for signatures and two blanks together, less
-- what is in lines above it.
theorem column_gap (depth : Nat) {width : Nat} (hh : o.help ≠ "") (h : o.signature.length ≤ width) :
    column (indent depth ++ o.signature ++ gap width o) + aboveColumn (indent depth ++ o.signature) =
      (indent depth).length + width + 2 := by
  have hgap : (gap width o).length = width - o.signature.length + 2 := by
    have htwo : "  ".length = 2 := by decide
    simp [gap, hh, htwo]
  have hle := column_le_length (s := indent depth ++ o.signature)
  rw [column_append_of_not_mem (not_mem_gap width o), hgap, aboveColumn]
  rw [String.length_append] at hle ⊢
  omega

-- The line shows the option at its depth, with the help text in the column. Without a help text there is nothing behind
-- the signature.
structure Shows (depth k : Nat) (o : CommandOption) (line : String) : Prop where
  help : o.help ≠ "" → BeginsAt k o.help line
  bare : o.help = "" → line = indent depth ++ o.signature
  trimmed : o.help = "" → o.defect? = none → ∀ c, line.toList.getLast? = some c → isBlank c = false

-- The lines of the list show its options in their order.
def InColumns (depth : Nat) (start : CommandOption → Nat) (options : List CommandOption) : Prop :=
  List.Forall₂ (fun o line => Shows depth (start o) o line) options (optionLines depth options)

theorem shows_optionLine_iff (ho : o ∈ options) : Shows depth k o (optionLine depth (columnWidth options) o) ↔
    (o.help ≠ "" → k + aboveColumn (indent depth ++ o.signature) = (indent depth).length + columnWidth options + 2) := by
  rw [optionLine_eq, ← String.append_assoc]
  by_cases hh : o.help = ""
  case pos =>
    have hgap : gap (columnWidth options) o ++ o.help = "" := by simp [gap, hh]
    rw [String.append_assoc, hgap, String.append_empty]
    refine iff_of_true ⟨fun hne => absurd hh hne, fun _ => rfl, fun _ hd c hc => ?_⟩ fun hne => absurd hh hne
    have ⟨c', hc', hblank⟩ := CommandOption.exists_getLast?_signature hd
    rw [String.toList_append, List.getLast?_append, hc', Option.some_or] at hc
    exact Option.some.inj hc ▸ hblank
  case neg =>
    have hcolumn := column_gap depth hh (length_le_columnWidth ho)
    constructor
    case mp =>
      intro h _
      rw [← hcolumn, beginsAt_append_iff.mp (h.help hh)]
    case mpr =>
      intro h
      refine ⟨fun _ => beginsAt_append_iff.mpr ?_, fun he => absurd he hh, fun he => absurd he hh⟩
      exact Nat.add_right_cancel (hcolumn.trans (h hh).symm)

theorem inColumns_iff : InColumns depth start options ↔ ∀ o ∈ options, o.help ≠ "" →
    start o + aboveColumn (indent depth ++ o.signature) = (indent depth).length + columnWidth options + 2 := by
  rw [InColumns, optionLines, List.forall₂_map_right_iff, List.forall₂_same]
  exact forall₂_congr fun o ho => shows_optionLine_iff ho

theorem inColumns_longest_iff (depth : Nat) (options : List CommandOption) :
    InColumns depth (fun o => (indent depth).length + columnWidth options + 2 -
      aboveColumn (indent depth ++ o.signature)) options ∧
    (InColumns depth (fun _ => (indent depth).length + longest options + 2) options ↔ ∀ o ∈ options, o.help ≠ "" →
      columnWidth options = longest options + aboveColumn (indent depth ++ o.signature)) ∧
    (columnWidth options = longest options ↔ ∀ o ∈ options, ∃ a ∈ options,
      (∀ c ∈ a.signature.toList, c.toNat < 0x80) ∧ Utf8.size o.signature.toList ≤ a.signature.length) := by
  refine ⟨?_, ?_, columnWidth_eq_longest_iff⟩
  case refine_1 =>
    refine inColumns_iff.mpr fun o ho _ => Nat.sub_add_cancel ?_
    have hle := length_le_columnWidth ho
    simp only [aboveColumn, String.length_append]
    omega
  case refine_2 =>
    refine inColumns_iff.trans (forall₂_congr fun o _ => imp_congr_right fun _ => ?_)
    omega

-- A letter of two bytes, and the help texts stand one blank too far to the right.
theorem not_inColumns_of_accent :
    let options : List CommandOption := [.switch "réseau" "Network", .switch "out" "Output"]
    (∀ o ∈ options, o.defect? = none) ∧
    optionLines 1 options = ["      --réseau   Network", "      --out      Output"] ∧
    ¬InColumns 1 (fun _ => (indent 1).length + longest options + 2) options := by
  intro options
  refine ⟨by decide +zetaReduce, by decide +zetaReduce, ?_⟩
  rw [inColumns_iff]
  decide +zetaReduce

end Help

end CompilerDriver
