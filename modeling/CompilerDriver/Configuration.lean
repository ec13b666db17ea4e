import CompilerDriver.Provider.Manifest
/-!
The configuration of the driver.
-/
namespace CompilerDriver

/-- Settings of the check for updates. -/
structure UpdateSettings where
  enabled : Bool := true
  /-- Where to ask for the latest version; a placeholder stands for the version of the driver. -/
  endpoint : String := "http://api.pshdl.org/api/v0.1/compiler/version?localVersion=\x7bversion\x7d"
  /-- The least number of days between two checks. -/
  intervalDays : Nat := 7
deriving DecidableEq, Inhabited

namespace UpdateSettings

/-- What the version stands in for. -/
def placeholder : List Char := "\x7bversion\x7d".toList

/-- `cs` with `new` wherever `old` begins, from left to right. At least one character is taken at a time. -/
def replaceAll (old new : List Char) : Nat → List Char → List Char
  | 0, cs => cs
  | _, [] => []
  | n + 1, c :: cs =>
    if old.isPrefixOf (c :: cs) then new ++ replaceAll old new n ((c :: cs).drop old.length)
    else c :: replaceAll old new n cs

/-- The address that is asked about a version. -/
def endpointFor (u : UpdateSettings) (version : String) : String :=
  String.ofList (replaceAll placeholder version.toList u.endpoint.length u.endpoint.toList)

end UpdateSettings

/-- The configuration of the driver. -/
structure Configuration where
  /-- Providers that need no file of their own. -/
  providers : List Manifest := []
  /-- Further directories to look for manifests in. -/
  providerPaths : List String := []
  update : UpdateSettings := {}
deriving Inhabited

/-- The configuration is the one without a file. -/
def Configuration.isDefault (c : Configuration) : Bool :=
  c.providers.isEmpty && c.providerPaths.isEmpty && c.update == {}

end CompilerDriver
