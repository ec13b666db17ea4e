import CompilerDriver.ConfigurationFile
import CompilerDriver.Discovery
import CompilerDriver.LogFilter
import CompilerDriver.Provider.Invoke
import CompilerDriver.Report
import CompilerDriver.Update.CheckFile
/-!
A whole run of the driver: find the configuration, discover the providers, dispatch the command line, report.
-/
namespace CompilerDriver

/-- Everything that a run did. -/
structure Session where
  /-- What happened before the command line was dispatched. -/
  preparation : List Event
  dispatch : Dispatch
  /-- A check for updates is due and was asked for. -/
  checks : Bool

namespace Session

/-- The providers of a run and what was logged on the way to them. -/
def prepare (launch : Program.Launcher) (w : World) : Configuration × List Provider × List Event :=
  let (c, configured) := ConfigurationFile.discover w
  let (manifests, discovered) := Discovery.discover w c (Discovery.searchPaths w c)
  let providers := manifests.map (Manifest.toProvider launch)
  (c, providers, configured ++ discovered ++ Registry.registrationEvents providers)

/-- Runs the driver with its arguments. -/
def run (launch : Program.Launcher) (w : World) (now : Time.Instant) (args : List CommandLine.Token) :
    Session :=
  let (c, providers, preparation) := prepare launch w
  let dispatch := (Registry.ofProviders providers).dispatch true args
  { preparation, dispatch
    checks := dispatch.checked && Update.dueIn w c.update (Update.checkFile? w) now }

/-- The report at the end of a run. -/
def report (s : Session) : Report := .ofDisposition s.dispatch.disposition

/-- Everything that happened on the terminal, in order. -/
def events (s : Session) : List Event :=
  s.preparation ++ s.dispatch.events ++ s.report.actions.filterMap fun
    | .writeOut text => some (.out (Program.bytes text))
    | .writeErr text => some (.err text)
    | .flushOut => none
    | .flushErr => none

/-- A line of the log. -/
def logLine (level : Level) (text : String) : String := s!"{level.label} {text}\n"

/-- What an event writes to the standard output. -/
def outOf : Event → List UInt8
  | .out bytes => bytes
  | _ => []

/-- What an event writes to the standard error output. -/
def errOf (f : LogFilter) : Event → String
  | .log level text => if f.shows level then logLine level text else ""
  | .out _ => ""
  | .err text => text

/-- All that a run writes to the standard output. -/
def stdout (s : Session) : List UInt8 := s.events.flatMap outOf

/-- All that a run writes to the standard error output. -/
def stderr (s : Session) (f : LogFilter) : String := String.join (s.events.map (errOf f))

/-- The exit code of a run. -/
def code (s : Session) : UInt8 := s.report.status.code

end Session
end CompilerDriver
