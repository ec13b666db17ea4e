/-!
What a run does on the terminal besides its report, in order: log lines, and output that a provider writes
directly.
-/
namespace CompilerDriver

/-- How severe a log line is, from the gravest. -/
inductive Level where
  | error
  | warn
  | info
  | debug
  | trace
deriving DecidableEq

namespace Level

/-- The place of a level in the order of severity, from 1 for the gravest. -/
def rank : Level → Nat
  | error => 1
  | warn => 2
  | info => 3
  | debug => 4
  | trace => 5

/-- The level as log lines show it. -/
def label : Level → String
  | error => "ERROR"
  | warn => "WARN"
  | info => "INFO"
  | debug => "DEBUG"
  | trace => "TRACE"

end Level

/-- One thing that happens on the terminal. -/
inductive Event where
  | log (level : Level) (text : String)
  | out (bytes : List UInt8)
  | err (text : String)
deriving DecidableEq

namespace Event

/-- The text of a warning. -/
def warning? : Event → Option String
  | log .warn text => some text
  | _ => none

/-- The texts of the warnings among `es`. -/
def warnings (es : List Event) : List String := es.filterMap warning?

end Event
end CompilerDriver
