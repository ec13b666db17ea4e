import CompilerDriver.CommandOption
/-!
The driver's own switches, which may stand before or after the name of a provider.
-/
namespace CompilerDriver

/-- Which of the driver's own switches are set. -/
structure Globals where
  help : Bool := false
  version : Bool := false
  nocheck : Bool := false
deriving DecidableEq, Inhabited

namespace Globals

/-- One of the driver's own switches. -/
inductive Switch where
  | version
  | help
  | nocheck
deriving DecidableEq

/-- The name of a switch on the command line. -/
def Switch.name : Switch → String
  | version => "version"
  | help => "help"
  | nocheck => "nocheck"

/-- What help says about a switch. -/
def Switch.text : Switch → String
  | version => "Print the version of this compiler"
  | help => "Print the usage options of this compiler"
  | nocheck => "Don't check for an updated version of the command line"

/-- The switches, in the order in which help shows them. -/
def switches : List Switch := [.version, .help, .nocheck]

/-- The switches as options. -/
def options : List CommandOption := switches.map fun s => .switch s.name s.text

/-- The switches as options have these names. -/
def names : List String := switches.map Switch.name

/-- A switch is set when its name is among `given`. -/
def ofNames (given : List String) : Globals where
  help := given.contains Switch.help.name
  version := given.contains Switch.version.name
  nocheck := given.contains Switch.nocheck.name

/-- What is set in one or the other. -/
def or (a b : Globals) : Globals where
  help := a.help || b.help
  version := a.version || b.version
  nocheck := a.nocheck || b.nocheck

theorem names_options : options.map (·.name) = names := rfl

end Globals
end CompilerDriver
