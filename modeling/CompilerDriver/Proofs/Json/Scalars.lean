import CompilerDriver.Json.Document
import CompilerDriver.Json.Record
import CompilerDriver.Proofs.Text.Reading
import Mathlib.Algebra.Order.BigOperators.Group.List
import Mathlib.Data.Nat.Digits.Defs
/-!
Texts, numbers and truth values are read back as they were written.

`Takes` says that a reader gives back what a document was made of, wherever the document stands in a text. The one
thing that it asks of its surroundings is that a number is not followed by what would make it longer.
-/
namespace CompilerDriver.Json.Reader

open Document (escape hexDigit quoted newline)
open Text (bind_of_eq pure_eq get_bind takeWhile_append_of_head?)

variable {α β : Type} {r : Reader α} {s s' blanks rest cs : List Char} {c : Char} {x : α} {steps n : Nat}

section Running

theorem peek_bind {f : Option Char → Reader β} : (peek >>= f) s = f s.head? s := rfl

theorem drop_bind {f : Unit → Reader β} : (drop >>= f) s = f () s.tail := rfl

theorem digits_bind {f : List Char → Reader β} :
    (digits >>= f) s = f (s.takeWhile isDigit) (s.dropWhile isDigit) := rfl

end Running

section Blanks

variable (hb : ∀ b ∈ blanks, isBlank b = true)
include hb

theorem skipBlanks_eq (hc : isBlank c = false) : skipBlanks (blanks ++ c :: s) = .ok ((), c :: s) := by
  show Except.ok ((), (blanks ++ c :: s).dropWhile isBlank) = _
  rw [List.dropWhile_append_of_pos hb, List.dropWhile_cons_of_neg (by simp [hc])]

theorem peekPart_eq (hc : isBlank c = false) : peekPart (blanks ++ c :: s) = .ok (some c, c :: s) := by
  rw [peekPart, bind_of_eq (skipBlanks_eq hb hc)]
  rfl

theorem peekValue_eq (hc : isBlank c = false) : peekValue (blanks ++ c :: s) = .ok (c, c :: s) := by
  rw [peekValue, bind_of_eq (peekPart_eq hb hc)]
  rfl

end Blanks

theorem peekPart_cons (hc : isBlank c = false) : peekPart (c :: s) = .ok (some c, c :: s) :=
  peekPart_eq (List.forall_mem_nil _) hc

-- The text does not go on with what could belong to a number.
structure Ends (s : List Char) : Prop where
  digit : s.head?.any isDigit = false
  point : s.head? ≠ some '.'
  exponent : startsExponent s.head? = false

-- The reader takes a document behind any blanks, at whatever level it stands, and gives `x`.
def Takes (r : Reader α) (d : Document) (x : α) : Prop :=
  ∀ (level : Nat) (blanks rest : List Char), (∀ b ∈ blanks, isBlank b = true) → Ends rest →
    r (blanks ++ (d.write .pretty level ++ rest)) = .ok (x, rest)

-- What is read may be passed on.
theorem Takes.bind_pure {d : Document} {f : α → β} (h : Takes r d x) : Takes (r >>= fun y => pure (f y)) d (f x) := by
  intro level blanks rest hb hr
  rw [bind_of_eq (h level blanks rest hb hr)]
  rfl

section Text

theorem hexValue?_hexDigit : ∀ d < 16, hexValue? (hexDigit d) = some d := by decide

theorem fourHex_eq {a b : Nat} (ha : a < 16) (hb : b < 16) :
    fourHex ('0' :: '0' :: hexDigit a :: hexDigit b :: s) = .ok (a * 16 + b, s) := by
  have hsize : ¬Text.Utf8.size ('0' :: '0' :: hexDigit a :: hexDigit b :: s) < 4 := by
    have hpos (c : Char) : 1 ≤ Text.Utf8.width c := by rw [Text.Utf8.width]; grind
    have := hpos (hexDigit a)
    have := hpos (hexDigit b)
    have := hpos '0'
    simp only [Text.Utf8.size, List.foldr_cons]
    omega
  have hvalue : fourHex? ('0' :: '0' :: hexDigit a :: hexDigit b :: s) = some (a * 16 + b) := by
    simp [fourHex?, hexValue?_hexDigit a ha, hexValue?_hexDigit b hb, show hexValue? '0' = some 0 from rfl]
  rw [fourHex, get_bind, if_neg hsize, hvalue]
  rfl

-- A control character is written by its number in four digits.
theorem escaped_number (hc : c.toNat < 0x20) :
    escaped ('u' :: '0' :: '0' :: hexDigit (c.toNat / 16) :: hexDigit (c.toNat % 16) :: s) = .ok (c, s) := by
  have hhex : fourHex ('0' :: '0' :: hexDigit (c.toNat / 16) :: hexDigit (c.toNat % 16) :: s) =
      .ok (c.toNat / 16 * 16 + c.toNat % 16, s) := fourHex_eq (by omega) (by omega)
  rw [Nat.div_add_mod'] at hhex
  show numberedChar ('0' :: '0' :: hexDigit (c.toNat / 16) :: hexDigit (c.toNat % 16) :: s) = _
  rw [numberedChar, bind_of_eq hhex, if_neg (by omega), if_pos (by omega), Char.ofNat_toNat]
  rfl

theorem escaped_letter {l : Char} (hu : l ≠ 'u') (hl : letterEscape? l = some c) : escaped (l :: s) = .ok (c, s) := by
  rw [escaped, peek_bind, List.head?_cons]
  simp only [hl]
  rfl

theorem stringBody_quote : stringBody (steps + 1) ('"' :: rest) = .ok ([], rest) := rfl

theorem stringBody_escaped (he : escaped s = .ok (c, s')) (h : stringBody steps s' = .ok (cs, rest)) :
    stringBody (steps + 1) ('\\' :: s) = .ok (c :: cs, rest) := by
  rw [stringBody, peek_bind]
  show (drop >>= fun _ => _) _ = _
  rw [drop_bind, List.tail_cons, bind_of_eq he, bind_of_eq h]
  rfl

theorem stringBody_plain (hq : c ≠ '"') (hs : c ≠ '\\') (hc : ¬c.toNat < 0x20)
    (h : stringBody steps s = .ok (cs, rest)) : stringBody (steps + 1) (c :: s) = .ok (c :: cs, rest) := by
  rw [stringBody, peek_bind, List.head?_cons]
  simp only [if_neg hc]
  rw [drop_bind, List.tail_cons, bind_of_eq h]
  rfl

-- A character stands for itself, or behind a backslash for a letter or its number.
theorem escape_cases (c : Char) :
    (∃ l, escape c = ['\\', l] ∧ l ≠ 'u' ∧ letterEscape? l = some c) ∨
    (escape c = ['\\', 'u', '0', '0', hexDigit (c.toNat / 16), hexDigit (c.toNat % 16)] ∧ c.toNat < 0x20) ∨
    (escape c = [c] ∧ c ≠ '"' ∧ c ≠ '\\' ∧ ¬c.toNat < 0x20) := by
  by_cases hq : c = '"'
  case pos => exact .inl ⟨'"', by rw [hq]; rfl, by decide, by rw [hq]; rfl⟩
  by_cases hs : c = '\\'
  case pos => exact .inl ⟨'\\', by rw [hs]; rfl, by decide, by rw [hs]; rfl⟩
  by_cases hn : c = '\n'
  case pos => exact .inl ⟨'n', by rw [hn]; rfl, by decide, by rw [hn]; rfl⟩
  by_cases hr : c = '\r'
  case pos => exact .inl ⟨'r', by rw [hr]; rfl, by decide, by rw [hr]; rfl⟩
  by_cases ht : c = '\t'
  case pos => exact .inl ⟨'t', by rw [ht]; rfl, by decide, by rw [ht]; rfl⟩
  by_cases hb : c = '\x08'
  case pos => exact .inl ⟨'b', by rw [hb]; rfl, by decide, by rw [hb]; rfl⟩
  by_cases hf : c = '\x0c'
  case pos => exact .inl ⟨'f', by rw [hf]; rfl, by decide, by rw [hf]; rfl⟩
  rw [escape, if_neg hq, if_neg hs, if_neg hn, if_neg hr, if_neg ht, if_neg hb, if_neg hf]
  by_cases hc : c.toNat < 0x20
  case pos => exact .inr (.inl ⟨if_pos hc, hc⟩)
  case neg => exact .inr (.inr ⟨if_neg hc, hq, hs, hc⟩)

theorem stringBody_escape (h : stringBody steps s = .ok (cs, rest)) :
    stringBody (steps + 1) (escape c ++ s) = .ok (c :: cs, rest) := by
  rcases escape_cases c with ⟨l, he, hu, hl⟩ | ⟨he, hc⟩ | ⟨he, hq, hs, hc⟩
  all_goals rw [he]
  case inl => exact stringBody_escaped (escaped_letter hu hl) h
  case inr.inl => exact stringBody_escaped (escaped_number hc) h
  case inr.inr => exact stringBody_plain hq hs hc h

theorem stringBody_flatMap (hsteps : cs.length ≤ steps) :
    stringBody (steps + 1) (cs.flatMap escape ++ '"' :: rest) = .ok (cs, rest) := by
  induction cs generalizing steps
  case nil => exact stringBody_quote
  case cons c cs hi =>
    rw [List.flatMap_cons, List.append_assoc]
    cases steps
    case zero => cases hsteps
    case succ steps => exact stringBody_escape (hi (Nat.le_of_succ_le_succ hsteps))

theorem escape_ne_nil (c : Char) : escape c ≠ [] := by
  rcases escape_cases c with ⟨l, he, _⟩ | ⟨he, _⟩ | ⟨he, _⟩
  all_goals simp [he]

theorem stringRest_eq (t : String) : stringRest (t.toList.flatMap escape ++ '"' :: rest) = .ok (t, rest) := by
  have hlength : t.toList.length ≤ (t.toList.flatMap escape).length := by
    rw [List.length_flatMap, ← List.length_map]
    refine List.length_le_sum_of_one_le _ fun k hk => ?_
    obtain ⟨c, _, rfl⟩ := List.mem_map.mp hk
    exact List.length_pos_of_ne_nil (escape_ne_nil c)
  have hsteps : t.toList.length ≤ (t.toList.flatMap escape ++ '"' :: rest).length := by
    rw [List.length_append]
    omega
  rw [stringRest, get_bind, bind_of_eq (stringBody_flatMap hsteps), String.ofList_toList]
  rfl

theorem quoted_append (t : String) (s : List Char) : quoted t ++ s = '"' :: (t.toList.flatMap escape ++ '"' :: s) := by
  simp [quoted]

theorem takes_stringAs (expected t : String) : Takes (stringAs expected) (.text t) t := by
  intro level blanks rest hb _
  rw [Document.write, quoted_append, stringAs, bind_of_eq (peekValue_eq hb (by decide)), if_pos rfl, drop_bind]
  exact stringRest_eq t

theorem takes_string (t : String) : Takes string (.text t) t := takes_stringAs _ t

theorem takes_character (c : Char) : Takes character (.text (String.singleton c)) c := by
  intro level blanks rest hb hr
  rw [character, bind_of_eq (takes_stringAs _ _ level blanks rest hb hr), String.toList_singleton]
  rfl

end Text

theorem word_eq (w : List Char) : word w (w ++ s) = .ok ((), s) := by
  induction w
  case nil => rfl
  case cons c cs hi =>
    rw [word, peek_bind]
    show (if c = c then _ else _ : Reader Unit) _ = _
    rw [if_pos rfl, drop_bind]
    exact hi

theorem takes_boolean (b : Bool) : Takes boolean (.boolean b) b := by
  intro level blanks rest hb _
  cases b
  case false =>
    show boolean (blanks ++ 'f' :: _) = _
    rw [boolean, bind_of_eq (peekValue_eq hb rfl)]
    exact bind_of_eq (word_eq ['f', 'a', 'l', 's', 'e'])
  case true =>
    show boolean (blanks ++ 't' :: _) = _
    rw [boolean, bind_of_eq (peekValue_eq hb rfl)]
    exact bind_of_eq (word_eq ['t', 'r', 'u', 'e'])

section Digits

theorem isDigit_of_mem_toDigits (h : c ∈ Nat.toDigits 10 n) : isDigit c = true :=
  Nat.isDigit_of_mem_toDigits (by decide) (by decide) h

theorem exists_toDigits_eq_cons (n : Nat) : ∃ c cs, Nat.toDigits 10 n = c :: cs ∧ isDigit c = true := by
  obtain ⟨c, cs, hcs⟩ := List.exists_cons_of_ne_nil (Nat.toDigits_ne_nil (b := 10) (n := n))
  exact ⟨c, cs, hcs, isDigit_of_mem_toDigits (hcs ▸ List.mem_cons_self)⟩

theorem isBlank_of_isDigit (h : isDigit c = true) : isBlank c = false := by
  by_contra hb
  simp only [isBlank, Bool.not_eq_false, Bool.or_eq_true, decide_eq_true_eq] at hb
  rcases hb with ((rfl | rfl) | rfl) | rfl
  all_goals cases h

-- Only zero begins with the digit zero.
theorem head?_toDigits (h : (Nat.toDigits 10 n).head? = some '0') : n = 0 := by
  induction n using Nat.strongRecOn
  case ind n hi =>
    by_cases hn : n < 10
    case pos =>
      rw [Nat.toDigits_of_lt_base hn] at h
      have hdigit : ∀ d < 10, some d.digitChar = some '0' → d = 0 := by decide
      exact hdigit n hn h
    case neg =>
      rw [Nat.toDigits_of_base_le (by decide) (by omega), List.head?_append_of_ne_nil _ Nat.toDigits_ne_nil] at h
      have := hi (n / 10) (by omega) h
      omega

theorem le_ofDigitChars : n ≤ Nat.ofDigitChars 10 cs n := by
  induction cs generalizing n
  case nil => exact Nat.le_refl n
  case cons c cs hi =>
    rw [Nat.ofDigitChars_cons]
    exact Nat.le_trans (by omega) hi

theorem foldl_pushWhole {d : Significand} (hf : d.full = false)
    (h : Nat.ofDigitChars 10 cs d.value ≤ greatestSignificand) :
    cs.foldl Significand.pushWhole d = { d with value := Nat.ofDigitChars 10 cs d.value } := by
  induction cs generalizing d
  case nil => rfl
  case cons c cs hi =>
    have hpush : d.pushWhole c = { d with value := 10 * d.value + digitValue c } := by
      have hle : d.value * 10 + digitValue c ≤ greatestSignificand :=
        Nat.mul_comm .. ▸ Nat.le_trans le_ofDigitChars h
      rw [Significand.pushWhole, if_neg (by simp [hf, hle]), Nat.mul_comm]
    rw [List.foldl_cons, hpush, Nat.ofDigitChars_cons]
    exact hi hf h

theorem foldl_toDigits (h : n < 2 ^ 64) :
    (Nat.toDigits 10 n).foldl Significand.pushWhole {} = { value := n } := by
  have hvalue : Nat.ofDigitChars 10 (Nat.toDigits 10 n) 0 = n := Nat.ofDigitChars_ten_toDigits
  rw [foldl_pushWhole rfl, hvalue]
  rw [hvalue]
  exact Nat.le_sub_one_of_lt h

-- The digits of a number are taken, and no more.
theorem takes_digits (he : Ends rest) : (Nat.toDigits 10 n ++ rest).takeWhile isDigit = Nat.toDigits 10 n ∧
    (Nat.toDigits 10 n ++ rest).dropWhile isDigit = rest :=
  takeWhile_append_of_head? (fun _ => isDigit_of_mem_toDigits) he.digit

theorem number_eq (h : n < 2 ^ 64) (he : Ends rest) :
    number true (Nat.toDigits 10 n ++ rest) = .ok (.natural n, rest) := by
  have ⟨c, cs, hcs, hc⟩ := exists_toDigits_eq_cons n
  have hhead : (Nat.toDigits 10 n ++ rest).head? = some c := by rw [hcs]; rfl
  have hvalue := foldl_toDigits h
  rw [number, peek_bind, hhead]
  simp only [hc, Bool.not_true, Bool.false_eq_true, if_false]
  split_ifs with hzero
  case pos =>
    obtain rfl : n = 0 := head?_toDigits (by rw [hcs, hzero]; rfl)
    rw [drop_bind, bind_of_eq pure_eq]
    show (peek >>= _) rest = _
    rw [peek_bind, if_neg (by simp [he.digit]), if_neg he.point, if_neg (by simp [he.exponent])]
    rfl
  case neg =>
    have ⟨htake, hdrop⟩ := takes_digits (n := n) he
    rw [digits_bind, htake, hdrop, peek_bind, hvalue, if_neg (by simp [hzero]), if_neg he.point,
      if_neg (by simp [he.exponent])]
    rfl

theorem takes_natural (h : n < 2 ^ 64) : Takes natural (.number n) n := by
  intro level blanks rest hb hr
  have ⟨c, cs, hcs, hc⟩ := exists_toDigits_eq_cons n
  have hblank : isBlank c = false := isBlank_of_isDigit hc
  have hwrite : Document.write .pretty level (.number n) ++ rest = c :: (cs ++ rest) := by
    rw [Document.write, Nat.toString_eq_ofList_toDigits, String.toList_ofList, hcs]
    rfl
  have hminus : c ≠ '-' := by rintro rfl; cases hc
  have hnumber := number_eq h hr
  rw [hcs] at hnumber
  rw [hwrite, natural, bind_of_eq (peekValue_eq hb hblank), if_pos (by simp [hc])]
  have hsigned : signedNumber (c :: (cs ++ rest)) = .ok (.natural n, rest) := by
    rw [signedNumber, peek_bind, List.head?_cons, if_neg (by simpa using hminus)]
    exact hnumber
  rw [bind_of_eq hsigned]
  rfl

end Digits

-- What a document begins with is no blank, does not stand for nothing, and neither separates items nor closes a list.
theorem exists_write_eq_cons (d : Document) (level : Nat) :
    ∃ c cs, d.write .pretty level = c :: cs ∧ isBlank c = false ∧ c ≠ 'n' ∧ c ≠ ',' ∧ c ≠ ']' := by
  cases d
  case text t => exact ⟨_, _, by rw [Document.write, quoted]; rfl, by decide⟩
  case number n =>
    have ⟨c, cs, hcs, hc⟩ := exists_toDigits_eq_cons n
    refine ⟨c, cs, ?_, isBlank_of_isDigit hc, ?_⟩
    · rw [Document.write, Nat.toString_eq_ofList_toDigits, String.toList_ofList, hcs]
    · refine ⟨?_, ?_, ?_⟩ <;> (rintro rfl; cases hc)
  case boolean b =>
    cases b
    all_goals exact ⟨_, _, rfl, by decide⟩
  case list ds =>
    cases ds
    case nil => exact ⟨_, _, by rw [Document.write], by decide⟩
    case cons => exact ⟨_, _, by rw [Document.write, List.cons_append], by decide⟩
  case record fs =>
    cases fs
    case nil => exact ⟨_, _, by rw [Document.write], by decide⟩
    case cons => exact ⟨_, _, by rw [Document.write, List.cons_append], by decide⟩

theorem Takes.optional {d : Document} (h : Takes r d x) : Takes (Reader.optional r) d (some x) := by
  intro level blanks rest hb hr
  obtain ⟨c, cs, hcs, hblank, hnull, _⟩ := exists_write_eq_cons d level
  have hitem := h level [] rest nofun hr
  rw [hcs, List.nil_append, List.cons_append] at hitem
  rw [hcs, List.cons_append, Reader.optional, bind_of_eq (peekPart_eq hb hblank), if_neg (by simpa using hnull),
    bind_of_eq hitem]
  rfl

end CompilerDriver.Json.Reader
