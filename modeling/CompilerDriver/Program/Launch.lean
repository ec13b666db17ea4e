import CompilerDriver.StandIn.Start
/-!
A launcher to try out runs with.

Programs, the command language and the tools that scripts call belong to the system and not to the driver. The
modules under `StandIn` imitate so much of them that runs can be computed. No theorem depends on them, and of the
driver's definitions only `main`: a provider takes any launcher.
-/
namespace CompilerDriver.Program

/-- Starts stand-ins for programs in the surroundings of a run. -/
def launcher (w : World) : Launcher := StandIn.start 100 w []

end CompilerDriver.Program
