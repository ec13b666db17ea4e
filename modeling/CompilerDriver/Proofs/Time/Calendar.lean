import CompilerDriver.Time.Calendar
import Mathlib.Tactic.IntervalCases
/-!
A number of days and a date of the calendar tell the same day.

Eras are alike, so it is enough to find a day within its era: it lies in a century, in four years of that century, and
in one of these years. All are counted from March, and only the last of its kind may have a leap day at its end.
-/
namespace CompilerDriver.Time.Date

variable {c q r s y d : Int}

theorem bounds_of_isValid {date : Date} (h : date.isValid = true) :
    1 ≤ date.month ∧ date.month ≤ 12 ∧ 1 ≤ date.day ∧ date.day ≤ 31 := by
  simp only [isValid, Bool.and_eq_true, decide_eq_true_eq] at h
  have hdays : daysInMonth date.year date.month ≤ 31 := by
    rw [daysInMonth]
    split_ifs
    all_goals decide
  omega

-- The day `s` of the year `r` of the four years `q` of the century `c`, all counted from 0. The last four years of a
-- century end without a leap day, unless the era ends with them.
structure DayOfEra (c q r s : Int) : Prop where
  century : 0 ≤ c ∧ c ≤ 3
  fourYears : 0 ≤ q ∧ q ≤ 24
  year : 0 ≤ r ∧ r ≤ 3
  day : 0 ≤ s ∧ s ≤ 365
  leap : s = 365 → r = 3 ∧ (q = 24 → c = 3)

-- The number of such a day in its era, and of its year.
def dayNumber (c q r s : Int) : Int := 36524 * c + 1461 * q + 365 * r + s

def yearNumber (c q r : Int) : Int := 100 * c + 4 * q + r

theorem exists_dayOfEra (h₀ : 0 ≤ d) (h₁ : d < daysPerEra) : ∃ c q r s, DayOfEra c q r s ∧ d = dayNumber c q r s := by
  rw [daysPerEra] at h₁
  -- What is left of a leap day would begin one more century or year.
  let c := min (d / 36524) 3
  let q := (d - 36524 * c) / 1461
  let r := min ((d - 36524 * c - 1461 * q) / 365) 3
  refine ⟨c, q, r, d - 36524 * c - 1461 * q - 365 * r, ⟨?_, ?_, ?_, ?_, ?_⟩, ?_⟩
  all_goals
    try rw [dayNumber]
    omega

-- The day `s` of the year `y`, both counted from March.
def ofMarch (y s : Int) : Date :=
  let m := (5 * s + 2) / 153
  let day := (s - (153 * m + 2) / 5 + 1).toNat
  if m < 10 then ⟨y, (m + 3).toNat, day⟩ else ⟨y + 1, (m - 9).toNat, day⟩

-- Twelve months cover the days of a year.
theorem month_bounds (h : 0 ≤ s ∧ s ≤ 365) : 0 ≤ (5 * s + 2) / 153 ∧ (5 * s + 2) / 153 ≤ 11 := by
  omega

theorem isValid_ofMarch (h : 0 ≤ s ∧ s ≤ 365) (hl : s = 365 → isLeapYear (y + 1) = true) :
    (ofMarch y s).isValid = true := by
  obtain ⟨hm₀, hm₁⟩ := month_bounds h
  generalize hm : (5 * s + 2) / 153 = m at hm₀ hm₁
  simp only [isValid, ofMarch, hm, daysInMonth]
  interval_cases m
  all_goals simp
  all_goals try omega
  -- February is left, the last month of such a year.
  split
  case isTrue => omega
  case isFalse hn =>
    have := mt hl hn
    omega

namespace DayOfEra

variable (h : DayOfEra c q r s)
include h

theorem dayNumber_bounds : 0 ≤ dayNumber c q r s ∧ dayNumber c q r s < daysPerEra := by
  obtain ⟨_, _, _, _, _⟩ := h
  rw [dayNumber, daysPerEra]
  omega

theorem yearNumber_div : yearNumber c q r / 4 = 25 * c + q ∧ yearNumber c q r / 100 = c := by
  obtain ⟨_, _, _, _, _⟩ := h
  rw [yearNumber]
  omega

theorem yearNumber_bounds : 0 ≤ yearNumber c q r ∧ yearNumber c q r ≤ 399 := by
  obtain ⟨_, _, _, _, _⟩ := h
  rw [yearNumber]
  omega

-- The quotients make up for the leap days that came before.
theorem yearNumber_eq (hd : d = dayNumber c q r s) :
    (d - d / 1460 + d / 36524 - d / 146096) / 365 = yearNumber c q r := by
  obtain ⟨_, _, _, _, _⟩ := h
  rw [dayNumber] at hd
  have hfour : d / 1460 = 25 * c + q + if 24 * c + q + 365 * r + s < 1460 then 0 else 1 := by
    split <;> omega
  have hcentury : d / 36524 - d / 146096 = c := by
    by_cases hlast : d = 146096
    case pos => omega
    case neg =>
      have : d / 146096 = 0 := by omega
      omega
  rw [Int.add_sub_assoc, hcentury, hfour, yearNumber]
  split
  all_goals omega

theorem dayNumber_eq : dayNumber c q r s - (365 * yearNumber c q r + yearNumber c q r / 4 - yearNumber c q r / 100) =
    s := by
  rw [h.yearNumber_div.left, h.yearNumber_div.right, dayNumber, yearNumber]
  omega

theorem isLeapYear_of_day (era : Int) (hs : s = 365) : isLeapYear (yearNumber c q r + era * 400 + 1) = true := by
  obtain ⟨_, _, _, _, hl⟩ := h
  have := hl hs
  simp only [isLeapYear, Bool.and_eq_true, Bool.or_eq_true, beq_iff_eq, bne_iff_ne, yearNumber]
  omega

theorem ofDays_eq (era : Int) :
    ofDays (era * daysPerEra + dayNumber c q r s - epochShift) = ofMarch (yearNumber c q r + era * 400) s := by
  have ⟨hd₀, hd₁⟩ := h.dayNumber_bounds
  have hz : era * daysPerEra + dayNumber c q r s - epochShift + epochShift =
      dayNumber c q r s + daysPerEra * era := by
    rw [Int.sub_add_cancel, Int.mul_comm, Int.add_comm]
  have hdiv : (dayNumber c q r s + daysPerEra * era) / daysPerEra = era := by
    rw [Int.add_mul_ediv_left _ _ (by decide), Int.ediv_eq_zero_of_lt hd₀ hd₁, Int.zero_add]
  have hmod : (dayNumber c q r s + daysPerEra * era) % daysPerEra = dayNumber c q r s := by
    rw [Int.add_mul_emod_self_left, Int.emod_eq_of_lt hd₀ hd₁]
  have hm := month_bounds h.day
  simp only [ofDays, hz, hdiv, hmod, h.yearNumber_eq rfl, h.dayNumber_eq, ofMarch]
  split
  case isTrue => rw [if_neg (by omega)]
  case isFalse => rw [if_pos (by omega)]

theorem toDays_ofMarch (era : Int) :
    (ofMarch (yearNumber c q r + era * 400) s).toDays = era * daysPerEra + dayNumber c q r s - epochShift := by
  have hy := h.yearNumber_bounds
  have hera : (yearNumber c q r + era * 400) / 400 = era := by omega
  have hyear : (yearNumber c q r + era * 400) % 400 = yearNumber c q r := by omega
  have hday := h.dayNumber_eq
  obtain ⟨hm₀, hm₁⟩ := month_bounds h.day
  generalize hm : (5 * s + 2) / 153 = m at hm₀ hm₁
  have hs := h.day
  simp only [ofMarch, hm]
  split
  case isTrue =>
    have hshift : (((m + 3).toNat : Int) + 9) % 12 = m := by omega
    simp only [toDays, hshift]
    rw [if_neg (by omega), hera, hyear]
    omega
  case isFalse =>
    have hshift : (((m - 9).toNat : Int) + 9) % 12 = m := by omega
    simp only [toDays, hshift]
    rw [if_pos (by omega), Int.add_sub_cancel, hera, hyear]
    omega

end DayOfEra

-- Every number of days is that of a day in some era.
theorem exists_era (days : Int) :
    ∃ era c q r s, DayOfEra c q r s ∧ days = era * daysPerEra + dayNumber c q r s - epochShift := by
  let z := days + epochShift
  have ⟨c, q, r, s, h, hd⟩ := exists_dayOfEra (d := z % daysPerEra) (Int.emod_nonneg _ (by decide))
    (Int.emod_lt_of_pos _ (by decide))
  refine ⟨z / daysPerEra, c, q, r, s, h, ?_⟩
  have : z / daysPerEra * daysPerEra + z % daysPerEra = z := Int.ediv_mul_add_emod ..
  omega

theorem isValid_ofDays (days : Int) : (ofDays days).isValid = true := by
  have ⟨era, c, q, r, s, h, hd⟩ := exists_era days
  rw [hd, h.ofDays_eq]
  exact isValid_ofMarch h.day (h.isLeapYear_of_day era)

theorem toDays_ofDays (days : Int) : (ofDays days).toDays = days := by
  have ⟨era, c, q, r, s, h, hd⟩ := exists_era days
  rw [hd, h.ofDays_eq, h.toDays_ofMarch]

-- A year is as far from the beginning as its days are, up to an era.
theorem year_ofDays_bounds (days : Int) :
    days + epochShift ≤ ((ofDays days).year / 400 + 1) * daysPerEra ∧
    ((ofDays days).year / 400 - 1) * daysPerEra ≤ days + epochShift := by
  have ⟨era, c, q, r, s, h, hd⟩ := exists_era days
  have hy := h.yearNumber_bounds
  have hn := h.dayNumber_bounds
  rw [hd, h.ofDays_eq, ofMarch]
  rw [daysPerEra] at *
  split
  all_goals
    simp only
    omega

end CompilerDriver.Time.Date
