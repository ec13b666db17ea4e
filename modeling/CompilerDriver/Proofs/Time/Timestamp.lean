import CompilerDriver.Proofs.Text.Reading
import CompilerDriver.Proofs.Time.Instant
import CompilerDriver.Time.Timestamp
/-!
What was written of an instant is read again.

Every number is followed by something that is no digit, so it is taken as a whole, and none of them begins with a
blank. A fraction has as many digits as its group, and a leap second at the end of a minute is its second 60. A fraction
of a second or more anywhere else is written as one of the next second, and that is what is read.
-/
namespace CompilerDriver.Time.Timestamp

open Text (bind_of_eq get_bind set_bind pure_eq takeWhile_append_of_head?)

variable {α : Type} {r : Reader α} {x : α} {s rest ds : List Char} {c : Char} {t : Instant} {width n low high : Nat}

section Digits

theorem padded_eq : padded width n =
    List.replicate (width - (Nat.toDigits 10 n).length) '0' ++ Nat.toDigits 10 n := by
  rw [padded, Nat.toString_eq_ofList_toDigits, String.toList_ofList]

theorem isDigit_of_mem_padded (h : c ∈ padded width n) : isDigit c = true := by
  rw [padded_eq] at h
  rcases List.mem_append.mp h with h | h
  case inl => rw [List.eq_of_mem_replicate h]; rfl
  case inr => exact Nat.isDigit_of_mem_toDigits (by decide) (by decide) h

theorem digitsValue_padded : digitsValue (padded width n) = n := by
  have hvalue (ds : List Char) : digitsValue ds = Nat.ofDigitChars 10 ds 0 := by
    rw [digitsValue, Nat.ofDigitChars_eq_foldl]
    congr
    funext a c
    rw [Nat.mul_comm]
    rfl
  rw [hvalue, padded_eq, Nat.ofDigitChars_append, Nat.ofDigitChars_replicate_zero, Nat.mul_zero,
    Nat.ofDigitChars_ten_toDigits]

theorem length_padded (hw : 0 < width) (h : n < 10 ^ width) : (padded width n).length = width := by
  have := (Nat.length_toDigits_le_iff (b := 10) (by decide) hw).mpr h
  rw [padded_eq, List.length_append, List.length_replicate]
  omega

theorem exists_padded_eq_cons (width n : Nat) : ∃ c cs, padded width n = c :: cs ∧ isDigit c = true := by
  have hne : padded width n ≠ [] := by
    rw [padded_eq]
    exact List.append_ne_nil_of_right_ne_nil _ Nat.toDigits_ne_nil
  obtain ⟨c, cs, hcs⟩ := List.exists_cons_of_ne_nil hne
  exact ⟨c, cs, hcs, isDigit_of_mem_padded (hcs ▸ List.mem_cons_self)⟩

theorem isBlank_of_isDigit (h : isDigit c = true) : Text.isBlank c = false := by
  simp only [isDigit, Bool.and_eq_true, decide_eq_true_eq, Char.le_def, UInt32.le_iff_toNat_le] at h
  simp only [Text.isBlank]
  have : 48 ≤ c.toNat ∧ c.toNat ≤ 57 := h
  simp
  omega

end Digits

-- The reader takes a part of the text in front of anything but a digit, and gives `x`.
def Takes (r : Reader α) (part : List Char) (x : α) : Prop :=
  ∀ rest, rest.head?.any isDigit = false → r (part ++ rest) = .ok (x, rest)

theorem takes_number {w : Nat} (hlen : (padded w n).length ≤ width) (hn : n ≤ greatestNumber) :
    Takes (number width) (padded w n) n := by
  intro rest hrest
  have hhead : (rest.take (width - (padded w n).length)).head?.any isDigit = false := by
    rw [List.head?_take]
    split
    · rfl
    · exact hrest
  have hdigits : ((padded w n ++ rest).take width).takeWhile isDigit = padded w n := by
    rw [List.take_append, List.take_of_length_le hlen]
    exact (takeWhile_append_of_head? (fun _ => isDigit_of_mem_padded) hhead).left
  have hvalue : ¬digitsValue (padded w n) > greatestNumber := by
    rw [digitsValue_padded]
    exact Nat.not_lt_of_le hn
  have ⟨c, cs, hcs, hc⟩ := exists_padded_eq_cons w n
  have hcons : padded w n ++ rest = c :: (cs ++ rest) := by rw [hcs]; rfl
  rw [number, get_bind, hcons]
  simp only [hc, Bool.not_true, Bool.false_eq_true, if_false]
  rw [← hcons, hdigits, if_neg hvalue, set_bind, List.drop_left, digitsValue_padded]
  rfl

theorem skipBlanks_cons (hc : Text.isBlank c = false) : skipBlanks (c :: s) = .ok ((), c :: s) := by
  show Except.ok ((), (c :: s).dropWhile Text.isBlank) = _
  rw [List.dropWhile_cons_of_neg (by simp [hc])]

theorem takes_bounded (hl : low ≤ n) (hh : n ≤ high) (hn : n < 100) : Takes (bounded low high) (padded 2 n) n := by
  intro rest hrest
  have hlen : (padded 2 n).length ≤ 2 := Nat.le_of_eq (length_padded (by decide) hn)
  have hnumber := takes_number hlen (Nat.le_trans (Nat.le_of_lt hn) (by decide)) rest hrest
  have ⟨c, cs, hcs, hc⟩ := exists_padded_eq_cons 2 n
  rw [hcs, List.cons_append] at hnumber ⊢
  rw [bounded, bind_of_eq (skipBlanks_cons (isBlank_of_isDigit hc)), bind_of_eq hnumber]
  rw [if_neg (by omega)]
  rfl

theorem literal_eq (hc : Text.isBlank c = false) : literal c (c :: s) = .ok ((), s) := by
  rw [literal, bind_of_eq (skipBlanks_cons hc), get_bind]
  simp only [if_true]
  rfl

theorem takes_year {y : Int} (hl : -1000000000 < y) (hh : y < 1000000000) : Takes year (writeYear y) y := by
  intro rest hrest
  have hrange : ¬(y < -(Nat.pow 2 31 : Int) ∨ (Nat.pow 2 31 : Int) ≤ y) := by
    show ¬(y < -2147483648 ∨ 2147483648 ≤ y)
    omega
  have hgreatest : y.natAbs ≤ greatestNumber := Nat.le_trans (by omega : y.natAbs ≤ 1000000000) (by decide)
  have hlen : (padded 4 y.natAbs).length ≤ (padded 4 y.natAbs ++ rest).length := by simp
  rw [writeYear]
  split_ifs with h hn
  case pos =>
    have hfour : (padded 4 y.natAbs).length ≤ 4 := Nat.le_of_eq (length_padded (by decide) (by omega))
    have hnumber := takes_number hfour hgreatest rest hrest
    have hy : (y.natAbs : Int) = y := by omega
    have ⟨c, cs, hcs, hc⟩ := exists_padded_eq_cons 4 y.natAbs
    rw [show y.toNat = y.natAbs by omega, hcs, List.cons_append]
    rw [hcs, List.cons_append] at hnumber
    rw [year, bind_of_eq (skipBlanks_cons (isBlank_of_isDigit hc)), get_bind]
    generalize hs : c :: (cs ++ rest) = s at hnumber
    -- A digit is neither of the signs.
    split
    · cases hs; cases hc
    · cases hs; cases hc
    · rw [bind_of_eq hnumber, hy, bind_of_eq pure_eq]
      simp only [if_neg hrange]
      rfl
  case pos =>
    have hnumber := takes_number hlen hgreatest rest hrest
    have hy : -(y.natAbs : Int) = y := by omega
    rw [List.cons_append, year, bind_of_eq (skipBlanks_cons rfl), get_bind]
    show ((set _ >>= _ : Reader Int) _) = _
    rw [set_bind, bind_of_eq hnumber, hy, bind_of_eq pure_eq]
    simp only [if_neg hrange]
    rfl
  case neg =>
    have hnumber := takes_number hlen hgreatest rest hrest
    have hy : (y.natAbs : Int) = y := by omega
    rw [List.cons_append, year, bind_of_eq (skipBlanks_cons rfl), get_bind]
    show ((set _ >>= _ : Reader Int) _) = _
    rw [set_bind, bind_of_eq hnumber, hy, bind_of_eq pure_eq]
    simp only [if_neg hrange]
    rfl

theorem separator_eq : separator ('T' :: s) = .ok ((), s) := rfl

-- A group of digits behind the point counts what is left of nine digits.
theorem fraction_point (h₀ : 0 < width) (h₉ : width ≤ 9) (hn : n < 10 ^ width) (hrest : rest.head?.any isDigit = false) :
    fraction ('.' :: (padded width n ++ rest)) = .ok (n * Nat.pow 10 (9 - width), rest) := by
  have hlen := length_padded h₀ hn
  have hgreatest : n ≤ greatestNumber :=
    Nat.le_trans (Nat.le_of_lt (Nat.lt_of_lt_of_le hn (Nat.pow_le_pow_right (by decide) h₉))) (by decide)
  have hnumber : number 9 (padded width n ++ rest) = .ok (n, rest) :=
    takes_number (Nat.le_trans (Nat.le_of_eq hlen) h₉) hgreatest rest hrest
  have htaken : (padded width n ++ rest).length - rest.length = width := by
    rw [List.length_append, hlen, Nat.add_sub_cancel]
  have hdrop : rest.dropWhile isDigit = rest := (takeWhile_append_of_head? (List.forall_mem_nil _) hrest).right
  rw [fraction, get_bind]
  show ((set _ >>= _ : Reader Nat) _) = _
  rw [set_bind, bind_of_eq hnumber, get_bind, htaken]
  show Except.ok (n * Nat.pow 10 (9 - width), rest.dropWhile isDigit) = _
  rw [hdrop]

theorem head?_writeFraction : (writeFraction n ++ 'Z' :: s).head?.any isDigit = false := by
  rw [writeFraction]
  split_ifs
  all_goals rfl

theorem fraction_eq (hn : n < Instant.nanosPerSecond) :
    fraction (writeFraction n ++ 'Z' :: s) = .ok (n, 'Z' :: s) := by
  have hrest : ('Z' :: s).head?.any isDigit = false := rfl
  rw [Instant.nanosPerSecond] at hn
  rw [writeFraction]
  split_ifs with hzero hmilli hmicro
  case pos => rw [hzero]; rfl
  case pos =>
    have hgroup : n / 1000000 * Nat.pow 10 (9 - 3) = n := Nat.div_mul_cancel (Nat.dvd_of_mod_eq_zero hmilli)
    rw [List.cons_append, fraction_point (by decide) (by decide) (by omega) hrest, hgroup]
  case pos =>
    have hgroup : n / 1000 * Nat.pow 10 (9 - 6) = n := Nat.div_mul_cancel (Nat.dvd_of_mod_eq_zero hmicro)
    rw [List.cons_append, fraction_point (by decide) (by decide) (by omega) hrest, hgroup]
  case neg =>
    have hgroup : n * Nat.pow 10 (9 - 9) = n := Nat.mul_one n
    rw [List.cons_append, fraction_point (by decide) (by decide) (by omega) hrest, hgroup]

theorem offset_eq : offset ['Z'] = .ok (0, []) := rfl

section Clock

variable (h : t.isValid = true)
include h

theorem secondOfMinute_of_isLeap (hl : t.isLeap = true) : t.secondOfDay.toNat % 60 = 59 := by
  have hs := t.secondOfDay_bounds
  have hday := t.days_secondOfDay
  have hend := (Instant.isValid_iff.mp h).right hl
  rw [Instant.secondsPerDay] at hday
  omega

-- The second 60 is the leap second of its minute.
theorem second_eq_sixty_iff :
    (t.secondOfDay.toNat % 60 + if t.isLeap = true then 1 else 0) = 60 ↔ t.isLeap = true := by
  split
  case isTrue hl => exact iff_of_true (by rw [secondOfMinute_of_isLeap h hl]) hl
  case isFalse hl => exact iff_of_false (by omega) hl

theorem clock_eq : (⟨(Date.ofDays t.days).toDays * Instant.secondsPerDay +
      ((t.secondOfDay.toNat / 3600 : Nat) * 3600 + (t.secondOfDay.toNat / 60 % 60 : Nat) * 60 +
        (if t.isLeap = true then 59 else t.secondOfDay.toNat % 60 + if t.isLeap = true then 1 else 0 : Nat)) - 0,
      if t.isLeap = true then t.nanos % Instant.nanosPerSecond + Instant.nanosPerSecond
        else t.nanos % Instant.nanosPerSecond⟩ : Instant) = t := by
  have hs := t.secondOfDay_bounds
  have hday := t.days_secondOfDay
  have hn := (Instant.isValid_iff.mp h).left.nanos
  have hleap : t.isLeap = true ↔ Instant.nanosPerSecond ≤ t.nanos := by rw [Instant.isLeap, decide_eq_true_eq]
  rw [Date.toDays_ofDays]
  rw [Instant.secondsPerDay, Instant.nanosPerSecond] at *
  refine (Instant.mk.injEq ..).mpr ⟨?seconds, ?nanos⟩
  case seconds =>
    split
    case isTrue hl =>
      have := secondOfMinute_of_isLeap h hl
      omega
    case isFalse => omega
  case nanos =>
    simp only [hleap]
    split
    all_goals omega

theorem assemble_eq :
    assemble (Date.ofDays t.days) (t.secondOfDay.toNat / 3600) (t.secondOfDay.toNat / 60 % 60)
      (t.secondOfDay.toNat % 60 + if t.isLeap then 1 else 0) (t.nanos % Instant.nanosPerSecond) 0 = .ok t := by
  have ⟨hl, hg⟩ := (Instant.isValid_iff.mp h).left.year
  have hyear : ¬(!(Date.ofDays t.days).isValid || (Date.ofDays t.days).year < Instant.leastYear ||
      Instant.greatestYear < (Date.ofDays t.days).year) = true := by
    simp only [Date.isValid_ofDays, Bool.not_true, Bool.false_or, Bool.or_eq_true, decide_eq_true_eq]
    omega
  rw [assemble, if_neg hyear, if_neg (by decide)]
  simp only [second_eq_sixty_iff h]
  rw [clock_eq h]
  exact if_neg (by omega)

theorem instant_write : instant (write t).toList = .ok (t, []) := by
  have ⟨hl, hg⟩ := (Instant.isValid_iff.mp h).left.year
  have hs := t.secondOfDay_bounds
  have ⟨hmonth₀, hmonth₁, hday₀, hday₁⟩ := Date.bounds_of_isValid (Date.isValid_ofDays t.days)
  rw [Instant.leastYear] at hl
  rw [Instant.greatestYear] at hg
  have hsecond : (t.secondOfDay.toNat % 60 + if t.isLeap = true then 1 else 0) ≤ 60 := by
    split
    all_goals omega
  rw [write, String.toList_ofList]
  simp only [List.append_assoc, List.cons_append, List.nil_append]
  rw [instant, bind_of_eq (takes_year (by omega) (by omega) _ rfl), bind_of_eq (literal_eq rfl),
    bind_of_eq (takes_bounded hmonth₀ hmonth₁ (by omega) _ rfl), bind_of_eq (literal_eq rfl),
    bind_of_eq (takes_bounded hday₀ hday₁ (by omega) _ rfl), bind_of_eq separator_eq,
    bind_of_eq (takes_bounded (Nat.zero_le _) (by omega) (by omega) _ rfl), bind_of_eq (literal_eq rfl),
    bind_of_eq (takes_bounded (Nat.zero_le _) (by omega) (by omega) _ rfl), bind_of_eq (literal_eq rfl),
    bind_of_eq (takes_bounded (Nat.zero_le _) hsecond (by omega) _ head?_writeFraction),
    bind_of_eq (fraction_eq (Nat.mod_lt _ (by decide))), bind_of_eq (skipBlanks_cons rfl), bind_of_eq offset_eq]
  have hassemble := assemble_eq h
  have hdone : skipBlanks [] = .ok ((), []) := rfl
  rw [bind_of_eq hdone, get_bind, if_neg (by simp)]
  simp only [hassemble]
  rfl

theorem read_write : read (write t) = .ok t := by
  rw [read, instant_write h]

end Clock

section Carry

-- What the text of an instant shows. A fraction of a second or more is carried into the next second, unless the
-- second is the last one of its minute.
def carried (t : Instant) : Instant :=
  if t.isLeap = true ∧ t.seconds % 60 ≠ 59 then ⟨t.seconds + 1, t.nanos - Instant.nanosPerSecond⟩ else t

theorem carried_eq_self_iff : carried t = t ↔ (t.isLeap = true → t.seconds % 60 = 59) := by
  rw [carried]
  split_ifs with hc
  case pos =>
    refine iff_of_false (fun he => ?_) fun h => hc.right (h hc.left)
    have := congrArg Instant.seconds he
    dsimp only at this
    omega
  case neg => exact iff_of_true rfl (not_and_not_right.mp hc)

-- The next second is one of the same minute, so the date stays.
theorem days_of_carry (hs : t.seconds % 60 ≠ 59) : (⟨t.seconds + 1, n⟩ : Instant).days = t.days := by
  simp only [Instant.days, Instant.secondsPerDay]
  omega

theorem secondOfDay_of_carry (hs : t.seconds % 60 ≠ 59) :
    (⟨t.seconds + 1, n⟩ : Instant).secondOfDay = t.secondOfDay + 1 := by
  simp only [Instant.secondOfDay, Instant.secondsPerDay]
  omega

variable (h : t.Representable)
include h

theorem isLeap_of_carry : (⟨t.seconds + 1, t.nanos - Instant.nanosPerSecond⟩ : Instant).isLeap = false := by
  have := h.nanos
  simp only [Instant.isLeap, decide_eq_false_iff_not]
  omega

theorem isValid_carried : (carried t).isValid = true := by
  rw [carried, Instant.isValid_iff]
  split_ifs with hc
  case pos =>
    refine ⟨⟨?_, ?_⟩, fun hl => absurd hl (by simp [isLeap_of_carry h])⟩
    · rw [days_of_carry hc.right]
      exact h.year
    · have := h.nanos
      dsimp only
      omega
  case neg => exact ⟨h, not_and_not_right.mp hc⟩

theorem write_carried : write (carried t) = write t := by
  rw [carried]
  split_ifs with hc
  case neg => rfl
  case pos =>
    obtain ⟨hl, hs⟩ := hc
    have hday := t.days_secondOfDay
    have hbounds := t.secondOfDay_bounds
    rw [Instant.secondsPerDay] at hday
    have hhour : (t.secondOfDay + 1).toNat / 3600 = t.secondOfDay.toNat / 3600 := by omega
    have hminute : (t.secondOfDay + 1).toNat / 60 % 60 = t.secondOfDay.toNat / 60 % 60 := by omega
    have hsecond : (t.secondOfDay + 1).toNat % 60 = t.secondOfDay.toNat % 60 + 1 := by omega
    have hnanos : (t.nanos - Instant.nanosPerSecond) % Instant.nanosPerSecond = t.nanos % Instant.nanosPerSecond :=
      (Nat.mod_eq_sub_mod (of_decide_eq_true hl)).symm
    simp only [write, days_of_carry hs, secondOfDay_of_carry hs, isLeap_of_carry h, hl, hhour, hminute, hsecond, hnanos,
      Bool.false_eq_true, if_true, if_false, Nat.add_zero]

theorem read_write_carried : read (write t) = .ok (carried t) := by
  rw [← write_carried h, read_write (isValid_carried h)]

end Carry

-- The last second before the year 0, with a leap second in it, and a leap second that does not end its minute.
example : write ⟨-62167219201, 1000000001⟩ = "-0001-12-31T23:59:60.000000001Z" ∧
    write ⟨43200, 1500000000⟩ = "1970-01-01T12:00:01.500Z" := by
  decide

end CompilerDriver.Time.Timestamp
