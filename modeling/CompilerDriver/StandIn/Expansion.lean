import CompilerDriver.Keyed
import CompilerDriver.StandIn.Script
/-!
What the words of a stand-in's command come to: parameters get their values, and what is not quoted is cut at blanks.

A word is first written out as marks, which remember what was quoted; `fields` cuts the marks.
-/
namespace CompilerDriver.StandIn.Script

/-- What the parameters of a script stand for. -/
structure Parameters where
  /-- The name of the script. -/
  name : String
  args : List String
  /-- The exit code of the last command. -/
  status : Nat
  named : Keyed String

/-- A piece of a word that has been written out. -/
inductive Mark where
  | char (c : Char) (quoted : Bool)
  /-- There is a field here, even if it has no characters. -/
  | present
  /-- A field ends here. -/
  | boundary
deriving DecidableEq

/-- The number of the process that runs a script, as the script sees it. -/
def processNumber : String := "4711"

namespace Parameters

/-- The value of a parameter that has one value. -/
def value? (p : Parameters) (name : String) : Option String :=
  match name with
  | "#" => some (toString p.args.length)
  | "?" => some (toString p.status)
  | "$" => some processNumber
  | "0" => some p.name
  | _ =>
    match name.toNat? with
    | some n => p.args[n - 1]?
    | none => p.named.get? name

/-- A parameter has a value. -/
def isSet (p : Parameters) (name : String) (emptyCounts : Bool) : Bool :=
  if name = "@" || name = "*" then !p.args.isEmpty
  else (p.value? name).any fun v => !(emptyCounts && v = "")

/-- The characters of a text. -/
def chars (quoted : Bool) (s : String) : List Mark := s.toList.map (.char · quoted)

/-- The arguments with ends of fields between them. -/
def argMarks (quoted : Bool) : List String → List Mark
  | [] => []
  | [a] => one a
  | a :: as => one a ++ .boundary :: argMarks quoted as
where
  /-- One argument. -/
  one (a : String) : List Mark := if quoted then .present :: chars true a else chars false a

/-- What a parameter comes to. -/
def valueMarks (p : Parameters) (name : String) (quoted : Bool) : List Mark :=
  if name = "@" || (name = "*" && !quoted) then argMarks quoted p.args
  else if name = "*" then chars true (" ".intercalate p.args)
  else chars quoted ((p.value? name).getD "")

mutual

/-- What a part of a word comes to. -/
def marksOf (p : Parameters) : Part → List Mark
  | .text s quoted => if quoted then .present :: chars true s else chars false s
  | .value name quoted => p.valueMarks name quoted
  | .valueOr name emptyCounts other quoted =>
    if p.isSet name emptyCounts then p.valueMarks name quoted else p.marks other

/-- What a word comes to. -/
def marks (p : Parameters) : List Part → List Mark
  | [] => []
  | q :: qs => p.marksOf q ++ p.marks qs

end

/-- Cuts marks into fields. `opened` is the field that has begun. -/
def cut (opened : Option (List Char)) : List Mark → List String
  | [] => (opened.map String.ofList).toList
  | .char c quoted :: ms =>
    if !quoted && (c = ' ' || c = '\t' || c = '\n') then (opened.map String.ofList).toList ++ cut none ms
    else cut (some (opened.getD [] ++ [c])) ms
  | .present :: ms => cut (some (opened.getD [])) ms
  | .boundary :: ms => (opened.map String.ofList).toList ++ cut none ms

/-- The fields of a word. -/
def fields (p : Parameters) (w : Word) : List String := cut none (p.marks w)

/-- A word as one text. -/
def text (p : Parameters) (w : Word) : String :=
  String.ofList ((p.marks w).filterMap fun
    | .char c _ => some c
    | .present => none
    | .boundary => some ' ')

end Parameters
end CompilerDriver.StandIn.Script
