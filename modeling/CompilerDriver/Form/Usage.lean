import CompilerDriver.Json.Document
import CompilerDriver.Json.Record
import CompilerDriver.Usage
/-!
The JSON form of options and usages. A short alias, a value name and a description are left out when there is
none; all other fields are written.
-/
namespace CompilerDriver

open Json (Document Reader)

/-- A field that is left out when there is no value. -/
def Json.Document.fieldIf (name : String) (x : Option Document) : List (String × Document) :=
  x.toList.map (name, ·)

/-- An option as a record. -/
def CommandOption.toDocument (o : CommandOption) : Document :=
  .record ([("name", .text o.name)] ++
    Document.fieldIf "short" (o.short.map fun c => .text (String.singleton c)) ++
    [("help", .text o.help)] ++
    Document.fieldIf "value_name" (o.valueName.map .text) ++
    [("multiple", .boolean o.multiple)])

/-- An option of which not all fields need to have been read. -/
structure CommandOption.Draft where
  name : Option String := none
  short : Option (Option Char) := none
  help : Option String := none
  valueName : Option (Option String) := none
  multiple : Option Bool := none

/-- The record of an option: only the name is required. -/
def CommandOption.shape : Reader.Shape CommandOption.Draft CommandOption where
  name := "struct OptionDef"
  blank := {}
  fields _ := [
    { name := "name", required := true, filled := (·.name.isSome),
      read := fun d => return { d with name := some (← Reader.string) } },
    { name := "short", filled := (·.short.isSome),
      read := fun d => return { d with short := some (← Reader.optional Reader.character) } },
    { name := "help", filled := (·.help.isSome),
      read := fun d => return { d with help := some (← Reader.string) } },
    { name := "value_name", filled := (·.valueName.isSome),
      read := fun d => return { d with valueName := some (← Reader.optional Reader.string) } },
    { name := "multiple", filled := (·.multiple.isSome),
      read := fun d => return { d with multiple := some (← Reader.boolean) } }]
  finish d := d.name.map fun name =>
    { name, short := d.short.getD none, help := d.help.getD "", valueName := d.valueName.getD none,
      multiple := d.multiple.getD false }

/-- Takes an option. -/
def CommandOption.reader (depth : Nat) : Reader CommandOption := Reader.record depth CommandOption.shape

namespace Usage

mutual

/-- A usage as a record. -/
def toDocument : Usage → Document
  | ⟨summary, description, options, groups⟩ =>
    .record ([("usage", .text summary)] ++
      Document.fieldIf "description" (description.map .text) ++
      [("options", .list (options.map CommandOption.toDocument)),
        ("groups", .list (toDocuments groups))])

/-- Several usages as records. -/
def toDocuments : List Usage → List Document
  | [] => []
  | g :: gs => toDocument g :: toDocuments gs

end

/-- A usage of which not all fields need to have been read. -/
structure Draft where
  summary : Option String := none
  description : Option (Option String) := none
  options : Option (List CommandOption) := none
  groups : Option (List Usage) := none

/-- The record of a usage: only the summary is required. `group` takes one of its groups. -/
def shape (group : Reader Usage) : Reader.Shape Draft Usage where
  name := "struct UsageDescriptor"
  blank := {}
  fields inner := [
    { name := "usage", required := true, filled := (·.summary.isSome),
      read := fun d => return { d with summary := some (← Reader.string) } },
    { name := "description", filled := (·.description.isSome),
      read := fun d => return { d with description := some (← Reader.optional Reader.string) } },
    { name := "options", filled := (·.options.isSome),
      read := fun d => return { d with options := some (← Reader.list inner CommandOption.reader) } },
    { name := "groups", filled := (·.groups.isSome),
      read := fun d => return { d with groups := some (← Reader.list inner fun _ => group) } }]
  finish d := d.summary.map fun summary =>
    { summary, description := d.description.getD none, options := d.options.getD [],
      groups := d.groups.getD [] }

/-- Takes a usage. A group stands two brackets deeper than its usage; where no group fits any more, none is
read. -/
def reader : Nat → Reader Usage
  | 0 => Reader.record 0 (shape (Reader.failNext .tooDeep))
  | 1 => Reader.record 1 (shape (Reader.failNext .tooDeep))
  | depth + 2 => Reader.record (depth + 2) (shape (reader depth))

end Usage
end CompilerDriver
