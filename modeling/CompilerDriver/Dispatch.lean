import CompilerDriver.CommandLine.Selection
import CompilerDriver.Help
/-!
Dispatching one command line: parse it, obey the driver's own switches, find the provider, invoke it.

A dispatch is a computation that leaves a trace: the providers it invoked, the checks for updates it started
and what it put on the terminal. A provider can only be invoked, and a check only be started, by an action that
notes it in the trace.
-/
namespace CompilerDriver

/-- The name of the driver in its version line. -/
def driverName : String := "pshdl"

/-- The version of the driver. -/
def driverVersion : String := "0.3.0"

/-- The line that `--version` prints. -/
def versionLine : String := s!"{driverName} version: {driverVersion}"

/-- What a command line came to. -/
inductive Disposition where
  | help (text : String)
  | version (line : String)
  /-- The first positional token is not the name of a provider. -/
  | unknownProvider (name : String) (known : List String)
  /-- A provider ran. -/
  | completed (outcome : Outcome)
  | usageError (message : String)
deriving DecidableEq, Inhabited

/-- What a dispatch sets off on its way. -/
structure Trace where
  /-- The providers that were invoked, in order, each with what it was given. -/
  calls : List (Provider × Invocation) := []
  /-- How often a check for updates was started. -/
  checks : Nat := 0
  /-- What happened on the terminal. -/
  events : List Event := []
deriving Inhabited

/-- A part of a dispatch: it gives a value and adds to the trace. -/
abbrev Traced := StateM Trace

namespace Traced

/-- Puts an event on the terminal. -/
def note (e : Event) : Traced Unit := modify fun t => { t with events := t.events ++ [e] }

/-- Starts the check for updates. -/
def startCheck : Traced Unit := modify fun t => { t with checks := t.checks + 1 }

/-- Invokes a provider. There is no other way to invoke one. -/
def call (p : Provider) (i : Invocation) : Traced Response := do
  let response := p.invoke i
  modify fun t => { t with calls := t.calls ++ [(p, i)], events := t.events ++ response.events }
  return response

end Traced

/-- Everything that dispatching a command line did. -/
structure Dispatch extends Trace where
  disposition : Disposition
deriving Inhabited

namespace Dispatch

/-- What the first provider that was invoked was given, if one was. -/
def invoked (d : Dispatch) : Option Invocation := d.calls.head?.map (·.2)

/-- The check for updates was started. -/
def checked (d : Dispatch) : Bool := d.checks != 0

end Dispatch

namespace Registry

/-- Invokes a provider as a selection asks for it. -/
def invoke (p : Provider) (name : String) (s : CommandLine.Selection) (check : Bool) :
    Traced Disposition := do
  if check && !s.globals.nocheck then Traced.startCheck
  let invocation := s.toInvocation name
  let residual := invocation.args.length
  Traced.note (.log .debug s!"Invoking provider '{name}' with {residual} residual argument(s)")
  let response ← Traced.call p invocation
  return .completed (response.outcome.withDiagnostic name)

/-- Does what a selection asks for. `empty` says that there were no arguments at all. -/
def route (r : Registry) (c : Composition) (check empty : Bool) (s : CommandLine.Selection) :
    Traced Disposition := do
  if empty || s.globals.help then return .help (Help.text c)
  else if s.globals.version then return .version versionLine
  else match s.provider with
    | none => return .help (Help.text c)
    | some name =>
      match r.lookup name with
      | none =>
        Traced.note (.log .debug s!"No provider named '{name}'")
        return .unknownProvider name r.names
      | some p => invoke p name s check

/-- Composes the command line, parses the arguments and does what they ask for. -/
def obey (r : Registry) (check : Bool) (args : List CommandLine.Token) : Traced Disposition := do
  (Composition.warnings r).forM fun w => Traced.note w.event
  let c := Composition.ofRegistry r
  match c.parse args with
  | .error e => return .usageError e.message
  | .ok s => r.route c check args.isEmpty s

/-- Dispatches the arguments of the driver. `check` says whether there is a check for updates to start. -/
def dispatch (r : Registry) (check : Bool) (args : List CommandLine.Token) : Dispatch :=
  let (disposition, trace) := (r.obey check args).run {}
  { trace with disposition }

/-- Dispatches several command lines in turn and counts the checks started so far. -/
def dispatchAll (r : Registry) (check : Bool) (runs : List (List CommandLine.Token)) :
    List (Dispatch × Nat) :=
  go 0 runs
where
  /-- Goes on when so many checks have been started. -/
  go (started : Nat) : List (List CommandLine.Token) → List (Dispatch × Nat)
    | [] => []
    | args :: runs =>
      let d := r.dispatch check args
      let started := started + d.checks
      (d, started) :: go started runs

end Registry
end CompilerDriver
