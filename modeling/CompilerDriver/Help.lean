import CompilerDriver.Composition
import CompilerDriver.Text.Utf8
/-!
The help text: the driver's switches, then a block for every provider.

Help is built as a list of lines. Each line that shows an option stands two blanks deeper for every level of
nesting; the help texts of one list of options start in one column.
-/
namespace CompilerDriver.Help

/-- The blanks before a line at a level of nesting. -/
def indent (depth : Nat) : String := String.ofList (List.replicate (2 * depth) ' ')

/-- The room that a list of options leaves for signatures: the bytes of the longest one. -/
def columnWidth (options : List CommandOption) : Nat :=
  (options.map fun o => Text.Utf8.size o.signature.toList).foldl max 0

/-- `s` with blanks behind it up to `width` characters. -/
def pad (width : Nat) (s : String) : String :=
  s ++ String.ofList (List.replicate (width - s.length) ' ')

/-- The line for one option. An option without a help text has nothing after its signature. -/
def optionLine (depth width : Nat) (o : CommandOption) : String :=
  if o.help = "" then indent depth ++ o.signature
  else indent depth ++ pad width o.signature ++ "  " ++ o.help

/-- The lines for a list of options. -/
def optionLines (depth : Nat) (options : List CommandOption) : List String :=
  options.map (optionLine depth (columnWidth options))

/-- The lines of a description. -/
def descriptionLines (depth : Nat) : Option String → List String
  | none => []
  | some text => (Text.lines text).map (indent depth ++ ·)

mutual

/-- The lines under the summary of a usage. -/
def bodyLines (depth : Nat) : Usage → List String
  | ⟨_, description, options, groups⟩ =>
    descriptionLines depth description ++ optionLines depth options ++ groupLines depth groups

/-- The lines of several groups, each headed by its summary. -/
def groupLines (depth : Nat) : List Usage → List String
  | [] => []
  | g :: gs => (indent depth ++ g.summary ++ ":") :: (bodyLines (depth + 1) g ++ groupLines depth gs)

end

/-- The block of one provider. -/
def entryLines (e : Composition.Entry) : List String :=
  ["", s!"Provider {e.name}:", indent 1 ++ "usage: " ++ e.usage.summary] ++ bodyLines 1 e.usage

/-- All pieces of the help text that end in a line feed. -/
def allLines (c : Composition) : List String :=
  ("usage: " ++ c.usageLine) :: optionLines 0 Globals.options ++ c.entries.flatMap entryLines

/-- The help text. -/
def text (c : Composition) : String :=
  String.join ((allLines c).map (· ++ "\n"))

end CompilerDriver.Help
