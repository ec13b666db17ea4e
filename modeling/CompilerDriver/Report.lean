import CompilerDriver.Dispatch
/-!
The report of a run: its exit status and what the driver prints at its end.
-/
namespace CompilerDriver

/-- How the driver ends. -/
inductive ExitStatus where
  /-- Success, help or version. -/
  | success
  | unknownProvider
  | providerFailure
  /-- The command line is malformed. -/
  | usage
deriving DecidableEq

namespace ExitStatus

/-- The exit code of the process. -/
def code : ExitStatus → UInt8
  | success => 0
  | unknownProvider => 1
  | providerFailure => 2
  | usage => 64

/-- The driver did what it was asked for. -/
def isSuccess (s : ExitStatus) : Bool := s == success

end ExitStatus

/-- Everything that the driver prints for one run, and its exit status. -/
structure Report where
  status : ExitStatus
  stdout : String := ""
  stderr : String := ""
deriving DecidableEq

namespace Report

/-- A text that is not empty ends in a line feed. -/
def withNewline (text : String) : String :=
  if text = "" ∨ text.toList.getLast? = some '\n' then text else text ++ "\n"

/-- The answer to a name that is not registered. -/
def unknownProviderText (name : String) (known : List String) : String :=
  s!"No such provider: {name} please try one of: [" ++ ", ".intercalate known ++ "]"

/-- The report of a disposition. -/
def ofDisposition : Disposition → Report
  | .help text => { status := .success, stdout := withNewline text }
  | .version line => { status := .success, stdout := withNewline line }
  | .unknownProvider name known =>
    { status := .unknownProvider, stdout := withNewline (unknownProviderText name known) }
  | .completed .success => { status := .success }
  | .completed (.failure text) => { status := .providerFailure, stderr := withNewline text }
  | .usageError message => { status := .usage, stderr := withNewline message }

/-- One thing done to one of two output streams. -/
inductive Action where
  | writeOut (text : String)
  | flushOut
  | writeErr (text : String)
  | flushErr
deriving DecidableEq

/-- What printing a report does, in order: the standard output is flushed before the diagnostic is written, so
that the two keep their order on a shared terminal. An empty text is not written. -/
def actions (r : Report) : List Action :=
  (if r.stdout = "" then [] else [.writeOut r.stdout]) ++ [.flushOut] ++
  (if r.stderr = "" then [] else [.writeErr r.stderr]) ++ [.flushErr]

/-- Does the actions in turn up to the first that fails: what was done, and the error. -/
def perform {ε : Type} (attempt : Action → Option ε) : List Action → List Action × Option ε
  | [] => ([], none)
  | a :: as =>
    match attempt a with
    | some e => ([], some e)
    | none => let (done, e) := perform attempt as; (a :: done, e)

end Report
end CompilerDriver
