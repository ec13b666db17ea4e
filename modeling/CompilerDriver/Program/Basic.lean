import CompilerDriver.File.Tree
import CompilerDriver.Keyed
/-!
Child processes: what is started, and how it ends.

What programs do is not the driver's affair. Its providers take any launcher, and so does all that is proved of them.
-/
namespace CompilerDriver.Program

/-- How a process ended. -/
inductive Ending where
  | exited (code : Nat)
  | killed (signal : Nat)
deriving DecidableEq, Inhabited

/-- The names of the signals, from signal 1 on. -/
def signalNames : List String := [
  "SIGHUP", "SIGINT", "SIGQUIT", "SIGILL", "SIGTRAP", "SIGABRT", "SIGBUS", "SIGFPE", "SIGKILL", "SIGUSR1",
  "SIGSEGV", "SIGUSR2", "SIGPIPE", "SIGALRM", "SIGTERM", "SIGSTKFLT", "SIGCHLD", "SIGCONT", "SIGSTOP",
  "SIGTSTP", "SIGTTIN", "SIGTTOU", "SIGURG", "SIGXCPU", "SIGXFSZ", "SIGVTALRM", "SIGPROF", "SIGWINCH",
  "SIGIO", "SIGPWR", "SIGSYS"]

/-- The process did what it was started for. -/
def Ending.isSuccess (e : Ending) : Bool := e == .exited 0

/-- An ending in words. -/
def Ending.describe : Ending → String
  | exited code => s!"exit status: {code}"
  | killed n =>
    match if n = 0 then none else signalNames[n - 1]? with
    | some name => s!"signal: {n} ({name})"
    | none => s!"signal: {n}"

/-- A program to start. -/
structure Start where
  /-- The program, as it was called. -/
  program : String
  args : List String := []
  /-- Variables that are set for it besides those of the surroundings. -/
  env : Keyed String := .empty
deriving Inhabited

/-- What a process has written, and how it ended. -/
structure Finished where
  out : List UInt8 := []
  err : List UInt8 := []
  ending : Ending := .exited 0
deriving Inhabited

/-- Starts a program and waits for its end, or says why it could not be started. -/
abbrev Launcher := Start → Except File.Fault Finished

/-- The bytes of a text. -/
def bytes (s : String) : List UInt8 := Text.Utf8.encode s.toList

/-- The text that bytes show. -/
def textOf (bs : List UInt8) : String := Text.Utf8.shown (Text.Utf8.decode bs)

end CompilerDriver.Program
