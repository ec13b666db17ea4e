import CompilerDriver.Dispatch
import CompilerDriver.Program.Basic
import CompilerDriver.Provider.Manifest
/-!
Providers that are programs of their own.

The program writes to the standard output itself. What it writes to its standard error output is shown when it
succeeds, and is the diagnostic when it fails.
-/
namespace CompilerDriver

/-- The variable that tells a program the name of its provider. -/
def providerVariable : String := "PSHDL_PROVIDER"

/-- The variable that tells a program the version of the driver. -/
def versionVariable : String := "PSHDL_VERSION"

namespace Manifest

/-- The program of a manifest with its arguments and variables for an invocation. -/
def toStart (m : Manifest) (i : Invocation) : Program.Start where
  program := m.program
  args := m.commandArgs i
  env := (m.env.insert providerVariable m.name).insert versionVariable driverVersion

/-- What an ended program means for the driver. -/
def outcomeOf (m : Manifest) (f : Program.Finished) : Outcome :=
  if f.ending.isSuccess then .success
  else
    let said := Text.trim (Program.textOf f.err)
    if said = "" then .failure s!"{m.program} exited with {f.ending.describe}" else .failure said

/-- What an ended program has put on the terminal. -/
def outputOf (f : Program.Finished) : List Event :=
  let out := if f.out.isEmpty then [] else [Event.out f.out]
  if f.ending.isSuccess && !f.err.isEmpty then out ++ [.err (Program.textOf f.err)] else out

/-- Runs the program of a manifest. -/
def invoke (launch : Program.Launcher) (m : Manifest) (i : Invocation) : Response :=
  let noted := Event.log .debug s!"Running {m.program} {Text.Quoted.encodeList (m.commandArgs i)}"
  match launch (m.toStart i) with
  | .error f => { outcome := .failure s!"failed to run {m.program}: {f.message}", events := [noted] }
  | .ok f => { outcome := m.outcomeOf f, events := noted :: outputOf f }

/-- The provider that a manifest describes. -/
def toProvider (launch : Program.Launcher) (m : Manifest) : Provider where
  name := m.name
  usage := m.toUsage
  invoke := m.invoke launch

end Manifest
end CompilerDriver
