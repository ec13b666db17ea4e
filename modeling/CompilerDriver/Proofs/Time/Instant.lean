import CompilerDriver.Proofs.Time.Calendar
import CompilerDriver.Time.Span
/-!
How far two instants are apart.

The span between two instants fits the numbers it is computed with, as the years of the calendar are few. It does not
always grow with the later instant: a leap second counts while the clock is past it, and no more after midnight. Whole
days are another matter, as a second does not make up for the rest of a day.
-/
namespace CompilerDriver.Time

-- An instant of a year of the calendar. Its fraction may be that of a leap second at any time of the day.
structure Instant.Representable (t : Instant) : Prop where
  year : Instant.leastYear ≤ (Date.ofDays t.days).year ∧ (Date.ofDays t.days).year ≤ Instant.greatestYear
  nanos : t.nanos < 2 * Instant.nanosPerSecond

-- A number that fits gives a span.
theorem Span.ofNanos?_eq_some {n : Int} (h : n.natAbs ≤ longestSpan) : ∃ s, ofNanos? n = some s ∧ s.nanos = n :=
  ⟨⟨n, h⟩, dif_pos h, rfl⟩

theorem Span.ofDays?_eq_some {days : Int} (h : days.natAbs ≤ 1000000000) :
    ∃ s, ofDays? days = some s ∧ s.nanos = days * Instant.secondsPerDay * Instant.nanosPerSecond := by
  have hs : signed64? (days * Instant.secondsPerDay) = some (days * Instant.secondsPerDay) := by
    rw [signed64?, if_pos]
    rw [Instant.secondsPerDay, greatestSigned]
    omega
  rw [ofDays?, hs]
  refine ofNanos?_eq_some ?_
  rw [Instant.secondsPerDay, Instant.nanosPerSecond, longestSpan]
  omega

namespace Instant

variable {t last now now' : Instant} {d : Int}

-- A leap second that an instant of universal time lies in ends a minute.
theorem isValid_iff : t.isValid = true ↔ t.Representable ∧ (t.isLeap = true → t.seconds % 60 = 59) := by
  simp only [isValid, Bool.and_eq_true, decide_eq_true_eq, Bool.or_eq_true, Bool.not_eq_true', beq_iff_eq]
  constructor
  case mp =>
    intro ⟨⟨hy, hn⟩, hl⟩
    exact ⟨⟨hy, hn⟩, fun h => hl.resolve_left (by simp [h])⟩
  case mpr =>
    intro ⟨⟨hy, hn⟩, hl⟩
    exact ⟨⟨hy, hn⟩, or_iff_not_imp_left.mpr fun h => hl (by simpa using h)⟩

theorem Representable.days_bounds (h : t.Representable) : t.days.natAbs ≤ 100000000 := by
  obtain ⟨hl, hg⟩ := h.year
  have := Date.year_ofDays_bounds t.days
  rw [leastYear] at hl
  rw [greatestYear] at hg
  rw [Date.epochShift, Date.daysPerEra] at this
  omega

theorem secondOfDay_bounds (t : Instant) : 0 ≤ t.secondOfDay ∧ t.secondOfDay < 86400 := by
  rw [secondOfDay, secondsPerDay]
  omega

theorem since_self (t : Instant) : t.since t = 0 := by
  simp [since]

theorem before_self (t : Instant) : t.before t = false := by
  simp [before]

theorem days_secondOfDay (t : Instant) : t.days * secondsPerDay + t.secondOfDay = t.seconds :=
  Int.ediv_mul_add_emod ..

-- The span between any two instants fits.
theorem since?_eq_some (ht : t.Representable) (hl : last.Representable) :
    ∃ s, t.since? last = some s ∧ s.nanos = t.since last := by
  have htd := ht.days_bounds
  have hld := hl.days_bounds
  have hts := t.secondOfDay_bounds
  have hls := last.secondOfDay_bounds
  have htn := ht.nanos
  have hln := hl.nanos
  have hdates : (t.days - last.days).natAbs ≤ 1000000000 := by omega
  have ⟨dates, hd, hdn⟩ := Span.ofDays?_eq_some hdates
  have hclock : (t.since last - (t.days - last.days) * secondsPerDay * nanosPerSecond).natAbs ≤ 1000000000000000 := by
    rw [nanosPerSecond] at htn hln
    rw [since, nanosPerSecond, secondsPerDay]
    split_ifs
    all_goals omega
  have ⟨clocks, hc, hcn⟩ := Span.ofNanos?_eq_some (Nat.le_trans hclock (by decide))
  rw [since?, hd, hc]
  have hsum : (dates.nanos + clocks.nanos).natAbs ≤ longestSpan := by
    rw [hdn, secondsPerDay, nanosPerSecond, longestSpan]
    rw [← hcn] at hclock
    omega
  have ⟨s, hs, hsn⟩ := Span.ofNanos?_eq_some hsum
  exact ⟨s, hs, by omega⟩

-- The nanoseconds from `b` to `a` without regard to leap seconds between them.
def apart (a b : Instant) : Int :=
  (a.seconds - b.seconds) * nanosPerSecond + (a.nanos - b.nanos)

theorem since_eq (h : now.isLeap = false) : now.since last =
    now.apart last + if last.isLeap = true ∧ last.secondOfDay < now.secondOfDay then (nanosPerSecond : Int) else 0 := by
  have hnow := now.days_secondOfDay
  have hlast := last.days_secondOfDay
  rw [since, apart]
  simp only [h]
  split_ifs with hlt hl hl hgt hl
  all_goals grind

theorem apart_le_since (h : now.isLeap = false) : now.apart last ≤ now.since last := by
  rw [since_eq h]
  split
  · rw [nanosPerSecond]; omega
  · omega

-- Where the clock is past the time of day of `last`, the days are counted by the calendar.
theorem le_since_iff (hb : last.nanos < 2 * nanosPerSecond) (h : now.isLeap = false)
    (hs : last.secondOfDay < now.secondOfDay) :
    d * secondsPerDay * nanosPerSecond ≤ now.since last ↔ d ≤ now.days - last.days := by
  rw [since_eq h, apart]
  simp only [isLeap, decide_eq_false_iff_not, hs, and_true, decide_eq_true_eq] at h ⊢
  simp only [secondOfDay, days, secondsPerDay, nanosPerSecond] at *
  split_ifs
  all_goals omega

-- Once so many days are over, they stay over.
theorem le_since_mono (hb : last.nanos < 2 * nanosPerSecond) (hn : now.isLeap = false) (hn' : now'.isLeap = false)
    (h : now'.before now = false) (hd : d * secondsPerDay * nanosPerSecond ≤ now.since last) :
    d * secondsPerDay * nanosPerSecond ≤ now'.since last := by
  simp only [before, Bool.or_eq_false_iff, Bool.and_eq_false_imp, beq_iff_eq, decide_eq_false_iff_not] at h
  by_cases hs : last.secondOfDay < now.secondOfDay
  case neg =>
    -- No leap second counts for `now`, and one can only add for `now'`.
    have hle : now.apart last ≤ now'.apart last := by
      rw [apart, apart, nanosPerSecond]
      rw [isLeap, decide_eq_false_iff_not, nanosPerSecond] at hn hn'
      omega
    rw [since_eq hn, if_neg fun h => hs h.right, Int.add_zero] at hd
    exact Int.le_trans (Int.le_trans hd hle) (apart_le_since hn')
  case pos =>
    rw [le_since_iff hb hn hs] at hd
    by_cases hs' : last.secondOfDay < now'.secondOfDay
    case pos =>
      rw [le_since_iff hb hn' hs']
      simp only [days, secondsPerDay] at *
      omega
    case neg =>
      -- The clock of `now'` is behind that of `now`, so midnight lies between them.
      refine Int.le_trans ?_ (apart_le_since hn')
      simp only [apart, days, secondOfDay, secondsPerDay, nanosPerSecond] at *
      omega

end Instant
end CompilerDriver.Time
