import CompilerDriver.Configuration
import CompilerDriver.Form.Manifest
/-!
The JSON form of the configuration. All fields are written, and none is required.
-/
namespace CompilerDriver

open Json (Document Reader)

namespace UpdateSettings

/-- The settings as a record. -/
def toDocument (u : UpdateSettings) : Document :=
  .record [("enabled", .boolean u.enabled), ("endpoint", .text u.endpoint),
    ("interval_days", .number u.intervalDays)]

/-- Settings of which not all fields need to have been read. -/
structure Draft where
  enabled : Option Bool := none
  endpoint : Option String := none
  intervalDays : Option Nat := none

/-- The record of the settings. -/
def shape : Reader.Shape Draft UpdateSettings where
  name := "struct UpdateConfig"
  blank := {}
  fields _ := [
    { name := "enabled", filled := (·.enabled.isSome),
      read := fun d => return { d with enabled := some (← Reader.boolean) } },
    { name := "endpoint", filled := (·.endpoint.isSome),
      read := fun d => return { d with endpoint := some (← Reader.string) } },
    { name := "interval_days", filled := (·.intervalDays.isSome),
      read := fun d => return { d with intervalDays := some (← Reader.natural) } }]
  finish d :=
    let usual : UpdateSettings := {}
    some { enabled := d.enabled.getD usual.enabled, endpoint := d.endpoint.getD usual.endpoint,
           intervalDays := d.intervalDays.getD usual.intervalDays }

/-- Takes settings. -/
def reader (depth : Nat) : Reader UpdateSettings := Reader.record depth shape

end UpdateSettings

namespace Configuration

/-- The configuration as a record. -/
def toDocument (c : Configuration) : Document :=
  .record [("providers", .list (c.providers.map Manifest.toDocument)),
    ("provider_paths", .list (c.providerPaths.map .text)), ("update", c.update.toDocument)]

/-- A configuration of which not all fields need to have been read. -/
structure Draft where
  providers : Option (List Manifest) := none
  providerPaths : Option (List String) := none
  update : Option UpdateSettings := none

/-- The record of a configuration. -/
def shape : Reader.Shape Draft Configuration where
  name := "struct Config"
  blank := {}
  fields inner := [
    { name := "providers", filled := (·.providers.isSome),
      read := fun d => return { d with providers := some (← Reader.list inner Manifest.reader) } },
    { name := "provider_paths", filled := (·.providerPaths.isSome),
      read := fun d => do
        let paths ← Reader.list inner fun _ => Reader.stringAs "path string"
        return { d with providerPaths := some paths } },
    { name := "update", filled := (·.update.isSome),
      read := fun d => return { d with update := some (← UpdateSettings.reader inner) } }]
  finish d :=
    some { providers := d.providers.getD [], providerPaths := d.providerPaths.getD [],
           update := d.update.getD {} }

/-- Takes a configuration. -/
def reader (depth : Nat) : Reader Configuration := Reader.record depth shape

/-- The text of a configuration file. -/
def write (c : Configuration) : String := c.toDocument.pretty

/-- Reads the text of a configuration file. -/
def read (text : String) : Except String Configuration :=
  Reader.run (reader Reader.greatestDepth) text

end Configuration
end CompilerDriver
