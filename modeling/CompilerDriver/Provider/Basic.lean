import CompilerDriver.Console
import CompilerDriver.Invocation
import CompilerDriver.Outcome
import CompilerDriver.Usage
/-!
Output providers: what the driver delegates the work to. A provider is known by its name, its usage and what
it does when it is invoked.
-/
namespace CompilerDriver

/-- What invoking a provider led to. -/
structure Response where
  outcome : Outcome
  /-- What happened on the terminal meanwhile. -/
  events : List Event := []
deriving Inhabited

/-- A backend, selected on the command line by its name. -/
structure Provider where
  name : String
  usage : Usage
  invoke : Invocation → Response
deriving Inhabited

end CompilerDriver
