import CompilerDriver.Text.Blank
import CompilerDriver.Time.Span
/-!
When the driver looks for a newer version of itself, and what it makes of the answer. The question itself goes over
the network and is not part of this.
-/
namespace CompilerDriver.Update

/-- No interval between two checks counts as longer than this many days. -/
def greatestInterval : Nat := 36500

/-- A check is due when there was none, when the last one is in the future, or when it is at least the interval
ago. -/
def isDue (last : Option Time.Instant) (now : Time.Instant) (days : Nat) : Bool :=
  match last with
  | none => true
  | some t =>
    now.before t ||
      (min days greatestInterval : Int) * Time.Instant.secondsPerDay * Time.Instant.nanosPerSecond ≤
        now.since t

/-- The same decision by spans of time and in numbers of 64 bits. There is none where one of them does not fit. -/
def isDue? (last : Option Time.Instant) (now : Time.Instant) (days : UInt64) : Option Bool :=
  match last with
  | none => some true
  | some t =>
    if now.before t then some true
    else do
      let counted := min ((Time.signed64? days.toNat).getD Time.greatestSigned) greatestInterval
      let passed ← now.since? t
      let interval ← Time.Span.ofDays? counted
      return interval.nanos ≤ passed.nanos

/-- What a check found. -/
inductive Status where
  | current
  | available (version : String)
deriving DecidableEq

/-- Why a check found nothing. -/
inductive Error where
  | emptyResponse
  | queryFailed
deriving DecidableEq

/-- The error in words. -/
def Error.message : Error → String
  | emptyResponse => "Empty version response"
  | queryFailed => "Failed to query version endpoint"

/-- Compares the version of the driver with the body of an answer. -/
def compareVersions (ownVersion body : String) : Except Error Status :=
  let remote := Text.trim body
  if remote = "" then .error .emptyResponse
  else if remote = ownVersion then .ok .current
  else .ok (.available remote)

end CompilerDriver.Update
