import CompilerDriver.Form.Usage
import CompilerDriver.Provider.Manifest
/-!
The JSON form of manifests. The directory of a manifest is not part of it.
-/
namespace CompilerDriver.Manifest

open Json (Document Reader)

/-- A manifest as a record. -/
def toDocument (m : Manifest) : Document :=
  .record ([("name", .text m.name)] ++
    Document.fieldIf "usage" (m.usage.map .text) ++
    Document.fieldIf "description" (m.description.map .text) ++
    [("command", .text m.command),
      ("args", .list (m.args.map .text)),
      ("env", .record (m.env.entries.map fun e => (e.1, .text e.2))),
      ("options", .list (m.options.map CommandOption.toDocument)),
      ("groups", .list (Usage.toDocuments m.groups))])

/-- A manifest of which not all fields need to have been read. -/
structure Draft where
  name : Option String := none
  usage : Option (Option String) := none
  description : Option (Option String) := none
  command : Option String := none
  args : Option (List String) := none
  env : Option (Keyed String) := none
  options : Option (List CommandOption) := none
  groups : Option (List Usage) := none

/-- The record of a manifest: the name and the command are required. -/
def shape : Reader.Shape Draft Manifest where
  name := "struct ProviderManifest"
  blank := {}
  fields inner := [
    { name := "name", required := true, filled := (·.name.isSome),
      read := fun d => return { d with name := some (← Reader.string) } },
    { name := "usage", filled := (·.usage.isSome),
      read := fun d => return { d with usage := some (← Reader.optional Reader.string) } },
    { name := "description", filled := (·.description.isSome),
      read := fun d => return { d with description := some (← Reader.optional Reader.string) } },
    { name := "command", required := true, filled := (·.command.isSome),
      read := fun d => return { d with command := some (← Reader.string) } },
    { name := "args", filled := (·.args.isSome),
      read := fun d => return { d with args := some (← Reader.list inner fun _ => Reader.string) } },
    { name := "env", filled := (·.env.isSome),
      read := fun d => return { d with env := some (.ofList (← Reader.map inner fun _ => Reader.string)) } },
    { name := "options", filled := (·.options.isSome),
      read := fun d => return { d with options := some (← Reader.list inner CommandOption.reader) } },
    { name := "groups", filled := (·.groups.isSome),
      read := fun d => return { d with groups := some (← Reader.list inner Usage.reader) } }]
  finish d := do
    let name ← d.name
    let command ← d.command
    return {
      name, command
      usage := d.usage.getD none
      description := d.description.getD none
      args := d.args.getD []
      env := d.env.getD .empty
      options := d.options.getD []
      groups := d.groups.getD [] }

/-- Takes a manifest. -/
def reader (depth : Nat) : Reader Manifest := Reader.record depth shape

end CompilerDriver.Manifest
