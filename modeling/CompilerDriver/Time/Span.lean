import CompilerDriver.Time.Instant
/-!
Spans of time as they are computed with: in numbers of 64 bits, and no longer than such a number can count
milliseconds.

An operation gives nothing where a number or a span does not fit.
-/
namespace CompilerDriver.Time

/-- The greatest number of 64 bits with a sign, one less than the 63rd power of two. -/
def greatestSigned : Nat := 9223372036854775807

/-- A whole number, if 64 bits are enough for it. -/
def signed64? (n : Int) : Option Int :=
  if -(greatestSigned : Int) - 1 ≤ n ∧ n ≤ greatestSigned then some n else none

/-- The nanoseconds of the longest span, which has as many milliseconds as the greatest number with a sign. -/
def longestSpan : Nat := 9223372036854775807000000

/-- A span of time, forwards or backwards. -/
structure Span where
  nanos : Int
  fits : nanos.natAbs ≤ longestSpan

namespace Span

/-- So many nanoseconds. -/
def ofNanos? (n : Int) : Option Span :=
  if h : n.natAbs ≤ longestSpan then some ⟨n, h⟩ else none

/-- So many days. -/
def ofDays? (days : Int) : Option Span := do
  let seconds ← signed64? (days * Instant.secondsPerDay)
  ofNanos? (seconds * Instant.nanosPerSecond)

/-- One span after the other. -/
def add? (a b : Span) : Option Span := ofNanos? (a.nanos + b.nanos)

end Span

/-- The span from `b` to `a`: that of the dates and that of the times of day. -/
def Instant.since? (a b : Instant) : Option Span := do
  let dates ← Span.ofDays? (a.days - b.days)
  let clocks ← Span.ofNanos? (a.since b - (a.days - b.days) * secondsPerDay * nanosPerSecond)
  dates.add? clocks

end CompilerDriver.Time
