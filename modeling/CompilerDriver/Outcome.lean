import CompilerDriver.Text.Blank
/-!
The outcome of running a provider. A failure carries the text for the user; `withDiagnostic` sees to it
that this text is not blank.
-/
namespace CompilerDriver

/-- How a provider ended. -/
inductive Outcome where
  | success
  | failure (diagnostic : String)
deriving DecidableEq, Inhabited

namespace Outcome

/-- The provider did its work. -/
def isSuccess : Outcome → Bool
  | success => true
  | failure _ => false

/-- A result without a value, with its error as the diagnostic. -/
def ofResult : Except String Unit → Outcome
  | .ok () => success
  | .error e => failure e

/-- Gives a failure of `provider` that says nothing a general text. -/
def withDiagnostic (provider : String) : Outcome → Outcome
  | success => success
  | failure text => if Text.allBlank text then failure s!"Provider {provider} failed" else failure text

end Outcome
end CompilerDriver
