import CompilerDriver.Proofs.Time.Instant
import CompilerDriver.Update.Check
/-!
When a check for updates is due.

The interval is a threshold for the time that has passed: once it is reached it stays reached, and a shorter interval
is reached before a longer one. The decision is there for all instants of the calendar and for all intervals.
-/
namespace CompilerDriver.Update

open Time (Instant)

variable {last now now' : Instant} {days i j : Nat}

theorem isDue_some_iff : isDue (some last) now days = true ↔ now.before last = true ∨
    (min days greatestInterval : Int) * Instant.secondsPerDay * Instant.nanosPerSecond ≤ now.since last := by
  rw [isDue, Bool.or_eq_true, decide_eq_true_eq]

-- An interval that needs all 64 bits is cut to one that is still too long.
theorem min_signed64? (days : UInt64) :
    min ((Time.signed64? days.toNat).getD Time.greatestSigned) greatestInterval =
      min (days.toNat : Int) greatestInterval := by
  rw [Time.signed64?, Time.greatestSigned, greatestInterval]
  split
  case isTrue => rw [Option.getD_some]
  case isFalse =>
    rw [Option.getD_none]
    omega

theorem isDue?_eq_some (hn : now.Representable) (hl : last.Representable) (days : UInt64) :
    isDue? (some last) now days = some (isDue (some last) now days.toNat) := by
  have hinterval : (min (days.toNat : Int) greatestInterval).natAbs ≤ 1000000000 := by
    rw [greatestInterval]
    omega
  have ⟨passed, hp, hpn⟩ := Instant.since?_eq_some hn hl
  have ⟨interval, hi, hin⟩ := Time.Span.ofDays?_eq_some hinterval
  rw [isDue?, isDue, min_signed64?, hp]
  cases now.before last
  case true => rfl
  case false => simp [hi, hpn, hin]

theorem isDue_later (hl : last.nanos < 2 * Instant.nanosPerSecond) (hn : now.isLeap = false)
    (hn' : now'.isLeap = false) (hb : now.before last = false) (h : now'.before now = false)
    (hd : isDue (some last) now days = true) : isDue (some last) now' days = true := by
  have hpassed := (isDue_some_iff.mp hd).resolve_left (by simp [hb])
  exact isDue_some_iff.mpr (.inr (Instant.le_since_mono hl hn hn' h hpassed))

theorem isDue_shorter (h : i ≤ j) (hd : isDue (some last) now j = true) : isDue (some last) now i = true := by
  refine isDue_some_iff.mpr ((isDue_some_iff.mp hd).imp_right (Int.le_trans ?_))
  rw [Instant.secondsPerDay, Instant.nanosPerSecond]
  omega

theorem isDue_of_greatestInterval_le (h : greatestInterval ≤ days) :
    isDue (some last) now days = isDue (some last) now greatestInterval := by
  simp only [isDue, Int.min_self, Int.min_eq_right (Int.ofNat_le.mpr h)]

-- No time has passed yet.
theorem isDue_self (h : 1 ≤ days) : isDue (some last) last days = false := by
  refine Bool.eq_false_iff.mpr fun hd => ?_
  have hpassed := (isDue_some_iff.mp hd).resolve_left (by simp [last.before_self])
  rw [last.since_self, greatestInterval, Instant.secondsPerDay, Instant.nanosPerSecond] at hpassed
  omega

-- What can be relied on when checks are made by the time of the last one.
structure Throttles (last : Instant) : Prop where
  defined : ∀ now : Instant, now.Representable → ∀ days : UInt64,
    isDue? (some last) now days = some (isDue (some last) now days.toNat)
  later : ∀ now now' : Instant, now.isLeap = false → now'.isLeap = false →
    now.before last = false → now'.before now = false →
    ∀ days : Nat, isDue (some last) now days = true → isDue (some last) now' days = true
  shorter : ∀ (now : Instant) (i j : Nat), i ≤ j →
    isDue (some last) now j = true → isDue (some last) now i = true
  capped : ∀ (now : Instant) (days : Nat), 36500 < days →
    isDue (some last) now days = isDue (some last) now 36500
  fresh : ∀ days : Nat, 1 ≤ days → isDue (some last) last days = false

theorem isDue_throttles (h : last.Representable) : Throttles last where
  defined _ hn days := isDue?_eq_some hn h days
  later _ _ hn hn' hb hle _ hd := isDue_later h.nanos hn hn' hb hle hd
  shorter _ _ _ := isDue_shorter
  capped _ _ hc := isDue_of_greatestInterval_le (Nat.le_of_lt hc)
  fresh _ := isDue_self

-- The leap second before noon on 8 March 2024, half of it over.
def beforeNoon : Instant := ⟨1709899199, 1500000000⟩

theorem isDue_throttles_in_leap_second : beforeNoon.Representable ∧ Throttles beforeNoon := by
  have h : beforeNoon.Representable := ⟨by decide, by decide⟩
  exact ⟨h, isDue_throttles h⟩

-- A week later, the leap second counts from noon on.
example : isDue (some beforeNoon) ⟨1710503999, 999999999⟩ 7 = false ∧
    isDue (some beforeNoon) ⟨1710504000, 0⟩ 7 = true := by
  decide

end CompilerDriver.Update
