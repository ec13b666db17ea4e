import CompilerDriver.CommandLine.Command
/-!
Parsing a whole command line against a composition.

Up to the provider's name only the driver's own switches are known. A first token that is neither a switch nor
a name selects an unknown provider, and everything after it is kept as it is. Behind `--` no token is looked up
before the line has been read: there a name is followed by tokens that no command reads, whosever name it is.
-/
namespace CompilerDriver.CommandLine

/-- What a command line asks for. -/
structure Selection where
  globals : Globals := {}
  /-- The first positional token. -/
  provider : Option String := none
  /-- The provider's options that are present, with their values. -/
  options : Keyed (List String) := .empty
  /-- The residual arguments. -/
  args : List String := []
deriving DecidableEq

namespace Selection

/-- All positional tokens, the provider's name first. -/
def positionals (s : Selection) : List String := s.provider.toList ++ s.args

/-- The selection as the provider `name` is to see it: the options are recorded one after the other. -/
def toInvocation (s : Selection) (name : String) : Invocation :=
  (({ provider := name, globals := s.globals } : Invocation).withOptions s.options.entries).withArgs s.args

/-- Nothing of the selection is lost, and nothing comes to it. -/
theorem toInvocation_eq (s : Selection) (name : String) : s.toInvocation name =
    { provider := name, globals := s.globals, options := s.options, args := s.args } := by
  have ho : (({ provider := name, globals := s.globals } : Invocation).withOptions
      s.options.entries).options = s.options := by
    apply Keyed.ext_get?
    intro k
    rw [Invocation.options_withOptions s.options.nodup_keys, Keyed.get?_empty]
    simp only [Keyed.get?]
    cases Keyed.find? k s.options.entries <;> rfl
  simp only [toInvocation, Invocation.withArgs, Invocation.provider_withOptions,
    Invocation.globals_withOptions, ho]

end Selection

/-- What was read after a provider's name, together with the switches before it. -/
def Command.State.toSelection (s : Command.State) (before : Globals) (e : Composition.Entry) :
    Selection where
  globals := before.or (.ofNames (s.given.map (·.1.name)))
  provider := some e.name
  options := .ofList ((s.given.filter fun g => g.1.name ∉ Globals.names).map fun g => (g.1.name, g.2))
  args := s.residual.getD []

end CommandLine

open CommandLine

namespace Composition

/-- The entry that a token names. -/
def named? (c : Composition) (t : Token) : Option Entry := t.text?.bind c.entry?

/-- The driver's switch of this name. -/
def globalOption? (name : String) : Option CommandOption := Globals.options.find? (·.name = name)

/-- A hint for a long option that the driver does not have: a switch of its own with a similar name, or
else one of the provider that the rest of the line names first. -/
def rootTip (c : Composition) (name : String) (rest : List Token) : Option Tip :=
  match Text.mostSimilar name Globals.names with
  | some similar => some (.similar similar)
  | none =>
    let placed := c.entries.filterMap fun e => do
      let similar ← Text.mostSimilar name ((Command.ofEntry e).options.map (·.name))
      let place ← rest.findIdx? (· = Token.ofString e.name)
      return (place, Tip.elsewhere e.name similar)
    (placed.foldl nearer none).map (·.2)
where
  nearer (best : Option (Nat × Tip)) (next : Nat × Tip) : Option (Nat × Tip) :=
    match best with
    | none => some next
    | some b => if next.1 < b.1 then some next else some b

/-- The part of a cluster that the driver, which has no short options, does not know. -/
def firstLetter : Token → Token
  | some letter :: _ => [some letter]
  | letters => letters

/-- The residual arguments where no command reads what stands behind the name. An unknown provider keeps it all. A
registered one has its arguments, as its options, from its own command only, and so is left with none. -/
def unreadArgs (c : Composition) (name : String) (behind : List String) : List String :=
  if (c.entry? name).isSome then [] else behind

/-- A selection of the provider that a token names, when nothing after it is read as an option. -/
def selectUnread (c : Composition) (given : List String) (t : Token) (rest : List Token) :
    Except UsageError Selection :=
  match t.text?, rest.mapM Token.text? with
  | some name, some behind =>
    .ok { globals := .ofNames given, provider := some name, args := c.unreadArgs name behind }
  | _, _ => .error (.notText c.usageLine)

/-- A selection of a registered provider. -/
def selectEntry (given : List String) (e : Entry) (rest : List Token) : Except UsageError Selection := do
  let s ← (Command.ofEntry e).read rest
  return s.toSelection (.ofNames given) e

/-- Reads the tokens when the switches `given` have been read before them. -/
def parseFrom (c : Composition) (given : List String) : List Token → Except UsageError Selection
  | [] => .ok { globals := .ofNames given }
  | t :: rest =>
    match c.named? t with
    | some e => selectEntry given e rest
    | none =>
      match t.shape with
      | .terminator =>
        match rest with
        | [] => .ok { globals := .ofNames given }
        | t :: rest => c.selectUnread given t rest
      | .plain => c.selectUnread given t rest
      | .cluster letters =>
        .error (.unexpected ("-" ++ (firstLetter letters).shown) none c.usageLine)
      | .long name attached =>
        match name.text?.bind globalOption? with
        | none => .error (.unexpected ("--" ++ name.shown) (c.rootTip name.shown rest) c.usageLine)
        | some o =>
          match attached with
          | some value => .error (.unwantedValue value.shown o.argument c.usageLine)
          | none =>
            if o.name ∈ given then .error (.repeated o.argument c.usageLine)
            else parseFrom c (given ++ [o.name]) rest

/-- Parses the arguments of the driver. -/
def parse (c : Composition) (ts : List Token) : Except UsageError Selection := c.parseFrom [] ts

end Composition
end CompilerDriver
