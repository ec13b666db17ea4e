import CompilerDriver.Time.Calendar
/-!
Instants of universal time, leap seconds included.

An instant is a number of seconds from the beginning of 1970 and a fraction. During a leap second the seconds
stay at the end of the minute and the fraction goes on beyond one second. Two instants on one day are as far apart
as the clock shows, with a leap second that lies between them counted.
-/
namespace CompilerDriver.Time

/-- An instant. A fraction of a second or more marks a leap second. -/
structure Instant where
  seconds : Int
  nanos : Nat
deriving DecidableEq, Inhabited

namespace Instant

/-- The nanoseconds of a second. -/
def nanosPerSecond : Nat := 1000000000

/-- The seconds of a day without leap second. -/
def secondsPerDay : Int := 86400

/-- The least and the greatest year of an instant. -/
def leastYear : Int := -262143

/-- The greatest year of an instant. -/
def greatestYear : Int := 262142

/-- The days from the beginning of 1970. -/
def days (t : Instant) : Int := t.seconds / secondsPerDay

/-- The seconds from the beginning of the day. -/
def secondOfDay (t : Instant) : Int := t.seconds % secondsPerDay

/-- The instant lies in a leap second. -/
def isLeap (t : Instant) : Bool := nanosPerSecond ≤ t.nanos

/-- The instant is in the years of the calendar, and if it lies in a leap second, then at the end of a minute. -/
def isValid (t : Instant) : Bool :=
  let year := (Date.ofDays t.days).year
  leastYear ≤ year && year ≤ greatestYear && t.nanos < 2 * nanosPerSecond &&
    (!t.isLeap || t.seconds % 60 == 59)

/-- Earlier. -/
def before (a b : Instant) : Bool :=
  a.seconds < b.seconds || (a.seconds == b.seconds && a.nanos < b.nanos)

/-- The nanoseconds from `b` to `a`. Of the two times of day the earlier one decides whether a leap second
lies between them. -/
def since (a b : Instant) : Int :=
  let leap : Int :=
    if b.secondOfDay < a.secondOfDay then if b.isLeap then 1 else 0
    else if a.secondOfDay < b.secondOfDay then if a.isLeap then -1 else 0
    else 0
  ((a.days - b.days) * secondsPerDay + (a.secondOfDay - b.secondOfDay) + leap) * nanosPerSecond +
    ((a.nanos : Int) - b.nanos)

end Instant
end CompilerDriver.Time
