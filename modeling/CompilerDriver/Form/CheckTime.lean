import CompilerDriver.Json.Document
import CompilerDriver.Json.Record
import CompilerDriver.Time.Timestamp
/-!
The JSON form of the time of the last check for updates.
-/
namespace CompilerDriver.Update

open Json (Document Reader)

/-- Takes an instant that is written as a string. -/
def instantReader : Reader Time.Instant := do
  let s ← Reader.stringAs "an RFC 3339 formatted date and time string"
  match Time.Timestamp.read s with
  | .ok t => return t
  | .error e => Reader.failAt (.other e.message)

/-- The record of the last check. -/
def checkTimeShape : Reader.Shape (Option Time.Instant) Time.Instant where
  name := "struct UpdateState"
  blank := none
  fields _ := [
    { name := "last_check", required := true, filled := (·.isSome),
      read := fun _ => return some (← instantReader) }]
  finish d := d

/-- The text of the file that keeps the time of the last check. -/
def writeCheckTime (t : Time.Instant) : String :=
  (Document.record [("last_check", .text (Time.Timestamp.write t))]).pretty

/-- Reads the text of that file. -/
def readCheckTime (text : String) : Except String Time.Instant :=
  Reader.run (Reader.record Reader.greatestDepth checkTimeShape) text

end CompilerDriver.Update
