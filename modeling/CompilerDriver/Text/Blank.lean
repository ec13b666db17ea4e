/-!
Blank characters, trimming and lines.

Blank means the Unicode property `White_Space`, which has 25 code points.
-/
namespace CompilerDriver.Text

/-- A character of the Unicode property `White_Space`. -/
def isBlank (c : Char) : Bool :=
  let n := c.toNat
  (9 ≤ n && n ≤ 13) || n == 0x20 || n == 0x85 || n == 0xA0 || n == 0x1680 ||
  (0x2000 ≤ n && n ≤ 0x200A) || n == 0x2028 || n == 0x2029 || n == 0x202F || n == 0x205F ||
  n == 0x3000

/-- `cs` without the blanks it starts with. -/
def trimStart (cs : List Char) : List Char :=
  cs.dropWhile isBlank

/-- `cs` without the blanks it ends with. -/
def trimEnd (cs : List Char) : List Char :=
  (cs.reverse.dropWhile isBlank).reverse

/-- `s` without the blanks at its two ends. -/
def trim (s : String) : String :=
  String.ofList (trimEnd (trimStart s.toList))

/-- A text of blanks only; the empty text is one. -/
def allBlank (s : String) : Bool :=
  s.toList.all isBlank

/-- Some character of `s` is blank. -/
def anyBlank (s : String) : Bool :=
  s.toList.any isBlank

/-- Cuts `cs` at every line feed. -/
def splitLines : List Char → List (List Char)
  | [] => [[]]
  | c :: cs =>
    if c = '\n' then [] :: splitLines cs
    else match splitLines cs with
      | [] => [[c]]
      | l :: ls => (c :: l) :: ls

/-- A line without one carriage return at its end. -/
def dropReturn (l : List Char) : List Char :=
  if l.getLast? = some '\r' then l.dropLast else l

/-- The lines of a text. A line feed ends a line, so the text after the last one counts only if there
is any; a carriage return before a line feed belongs to the line's end. -/
def lines (s : String) : List String :=
  let all := splitLines s.toList
  let ended := all.dropLast.map dropReturn
  let last := all.getLast?.getD []
  (if last.isEmpty then ended else ended ++ [last]).map String.ofList

end CompilerDriver.Text
