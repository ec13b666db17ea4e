import CompilerDriver.CommandLine.Token
import CompilerDriver.CommandLine.UsageError
import CompilerDriver.Composition
import CompilerDriver.Text.Similarity
/-!
Reading the part of a command line after a provider's name.

The tokens are read from left to right by `step`. What has just been read may still be open: an option may
wait for its value, a separate value or a run of residual arguments is checked only when the next option comes
or the line ends. `settle` closes what is open.
-/
namespace CompilerDriver.CommandLine

/-- What can be given after a provider's name, besides residual arguments. -/
structure Command where
  name : String
  options : List CommandOption

namespace Command

/-- The provider's accepted options, and after them the driver's own switches. -/
def ofEntry (e : Composition.Entry) : Command := ⟨e.name, e.options ++ Globals.options⟩

/-- The option of this long name. -/
def long? (c : Command) (name : String) : Option CommandOption := c.options.find? (·.name = name)

/-- The option of this short alias. -/
def short? (c : Command) (letter : Char) : Option CommandOption :=
  c.options.find? (·.short = some letter)

/-- What is still open after a token. -/
inductive Pending where
  | nothing
  /-- An option waits for its value. -/
  | awaiting (o : CommandOption)
  /-- An option got a value as a token of its own. -/
  | received (o : CommandOption) (value : Token)
  /-- Residual arguments in a row. -/
  | run (args : List Token)
deriving DecidableEq

/-- What has been read so far. -/
structure State where
  /-- The options given, with their values. -/
  given : List (CommandOption × List String) := []
  /-- The residual arguments, once there are any. -/
  residual : Option (List String) := none
  pending : Pending := .nothing
  /-- `--` has been read. -/
  trailing : Bool := false
deriving DecidableEq

/-- What is wrong with something that was read. -/
inductive Fault where
  | repeated (o : CommandOption)
  | missingValue (o : CommandOption)
  | notText
deriving DecidableEq

/-- One line that shows how the command is used. It names the arguments in `used`; only if nothing
was used, it has a placeholder for the options. A command without a name begins with its arguments. -/
def synopsis (c : Command) (used : List String) (residualUsed : Bool) : String :=
  let options := if used.isEmpty && !residualUsed then ["[OPTIONS]"] else used
  " ".intercalate ([c.name].filter (· ≠ "") ++ options ++ ["[ARGS]..."])

/-- The error for a fault. -/
def Fault.error (c : Command) : Fault → UsageError
  | repeated o => .repeated o.argument (c.synopsis [] false)
  | missingValue o => .missingValue o.argument
  | notText => .notText (c.synopsis [] false)

namespace State

/-- The option has been given. -/
def has (s : State) (o : CommandOption) : Bool := s.given.any (·.1.name = o.name)

/-- Forgets that the option was given. -/
def forget (s : State) (o : CommandOption) : State :=
  { s with given := s.given.filter (·.1.name ≠ o.name) }

/-- Records values of an option, after those it has. -/
def add (s : State) (o : CommandOption) (values : List String) : State :=
  if s.has o then
    { s with given := s.given.map fun g => if g.1.name = o.name then (g.1, g.2 ++ values) else g }
  else { s with given := s.given ++ [(o, values)] }

/-- Records a switch. One that may be repeated counts as given where it comes last. -/
def raise (s : State) (o : CommandOption) : State × Option Fault :=
  if !o.multiple && s.has o then (s.forget o, some (.repeated o))
  else ((s.forget o).add o [], none)

/-- Records a value of an option. -/
def store (s : State) (o : CommandOption) (value : Token) : State × Option Fault :=
  if !o.multiple && s.has o then (s.forget o, some (.repeated o))
  else match value.text? with
    | some v => (s.add o [v], none)
    | none => (s.add o [], some .notText)

/-- Records residual arguments. -/
def addResidual (s : State) (args : List Token) : State × Option Fault :=
  match args.mapM Token.text? with
  | some texts => ({ s with residual := some (s.residual.getD [] ++ texts) }, none)
  | none => ({ s with residual := some (s.residual.getD []) }, some .notText)

/-- Closes what is open. -/
def settle (s : State) : State × Option Fault :=
  let closed := { s with pending := .nothing }
  match s.pending with
  | .nothing => (closed, none)
  | .awaiting o => (closed, some (.missingValue o))
  | .received o value => closed.store o value
  | .run args => closed.addResidual args

/-- The options given, as messages name them. -/
def usedArguments (s : State) : List String := s.given.map (·.1.argument)

end State

/-- The state, unless there is a fault. -/
def check (c : Command) : State × Option Fault → Except UsageError State
  | (s, none) => .ok s
  | (_, some f) => .error (f.error c)

/-- Closes what is open before an option or a residual argument is taken up. -/
def settled (c : Command) (s : State) : Except UsageError State := c.check s.settle

/-- Takes `t` as a residual argument. -/
def takeResidual (c : Command) (s : State) (t : Token) : Except UsageError State :=
  match s.pending with
  | .run args => .ok { s with pending := .run (args ++ [t]) }
  | _ => do
    let s ← c.settled s
    return { s with pending := .run [t] }

/-- Takes up an option that waits for its value in the next token. -/
def await (c : Command) (s : State) (o : CommandOption) : Except UsageError State := do
  let s ← c.settled s
  return { s with pending := .awaiting o }

/-- Takes up an option with its value in the same token. -/
def takeValue (c : Command) (s : State) (o : CommandOption) (value : Token) : Except UsageError State := do
  let s ← c.settled s
  c.check (s.store o value)

/-- Takes up a switch. -/
def takeSwitch (c : Command) (s : State) (o : CommandOption) : Except UsageError State := do
  let s ← c.settled s
  c.check (s.raise o)

/-- The error for a long option that the command does not have. It takes precedence over what is wrong with
something still open. -/
def unknownLong (c : Command) (s : State) (name : Token) : UsageError :=
  let s := s.settle.1
  let argument := "--" ++ name.shown
  match Text.mostSimilar name.shown (c.options.map (·.name)) with
  | some similar =>
    let suggested := (c.long? similar).toList.map (·.argument)
    let used := s.usedArguments ++ suggested.filter (!s.usedArguments.contains ·)
    .unexpected argument (some (.similar similar)) (c.synopsis used s.residual.isSome)
  | none =>
    .unexpected argument (some (.escape argument)) (c.synopsis s.usedArguments s.residual.isSome)

/-- The error for a value given to a switch. What is still open does not count as used. -/
def unwantedValue (c : Command) (s : State) (o : CommandOption) (value : Token) : UsageError :=
  let used := s.usedArguments ++ [o.argument].filter (!s.usedArguments.contains ·)
  .unwantedValue value.shown o.argument (c.synopsis used s.residual.isSome)

/-- The error for a short option that the command does not have. -/
def unknownShort (c : Command) (letters : Token) : UsageError :=
  let argument := "-" ++ letters.shown
  .unexpected argument (some (.escape argument)) (c.synopsis [] false)

/-- Takes up a long option. -/
def takeLong (c : Command) (s : State) (name : Token) (attached : Option Token) :
    Except UsageError State :=
  match name.text?.bind c.long? with
  | none => .error (c.unknownLong s name)
  | some o =>
    if o.takesValue then
      match attached with
      | some value => c.takeValue s o value
      | none => c.await s o
    else
      match attached with
      | some value => .error (c.unwantedValue s o value)
      | none => c.takeSwitch s o

/-- Takes up the short options of one token. After an option with a value the rest of the token is that
value, less one `=` at its front. -/
def takeCluster (c : Command) (s : State) : Token → Except UsageError State
  | [] => .ok s
  | none :: rest => .error (c.unknownShort (none :: rest))
  | some letter :: rest =>
    match c.short? letter with
    | none => .error (c.unknownShort [some letter])
    | some o =>
      if o.takesValue then
        match rest with
        | [] => c.await s o
        | some '=' :: value => c.takeValue s o value
        | value => c.takeValue s o value
      else do
        let s ← c.takeSwitch s o
        takeCluster c s rest

/-- Reads one token. -/
def step (c : Command) (s : State) (t : Token) : Except UsageError State :=
  if s.trailing then c.takeResidual s t
  else match t.shape with
    | .terminator => .ok { s with trailing := true }
    | .long name attached => c.takeLong s name attached
    | .cluster letters => c.takeCluster s letters
    | .plain =>
      match s.pending with
      | .awaiting o => .ok { s with pending := .received o t }
      | _ => c.takeResidual s t

/-- Reads all tokens after the provider's name. -/
def read (c : Command) (ts : List Token) : Except UsageError State := do
  let s ← ts.foldlM c.step {}
  c.settled s

end Command
end CompilerDriver.CommandLine
