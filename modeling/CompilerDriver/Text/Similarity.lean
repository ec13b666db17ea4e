/-!
The Jaro similarity of two texts, and the most similar of several candidates.

Two equal characters match if their places are less than half the longer length apart; each character
matches at most once, and the earliest free partner is taken. Half of the matched characters that stand in
another order count as transpositions.
-/
namespace CompilerDriver.Text

/-- Marks the first free place of `ys` that has `x`, is at least `low` and is below `high`. The places are
counted from `j`; `used` tells which are not free. -/
def takeMatch (x : Char) (low high : Nat) (j : Nat) : List Char → List Bool → Option (List Bool)
  | y :: ys, u :: used =>
    if j < high then
      if low ≤ j && x == y && !u then some (true :: used)
      else (takeMatch x low high (j + 1) ys used).map (u :: ·)
    else none
  | _, _ => none

/-- For each character from the place `i` on whether it finds a partner in `ys`, and which places of `ys`
are used afterwards. -/
def matchAll (reach : Nat) (ys : List Char) (i : Nat) : List Char → List Bool → List Bool × List Bool
  | [], used => ([], used)
  | x :: xs, used =>
    match takeMatch x (i - reach) (i + reach + 1) 0 ys used with
    | some used' => let r := matchAll reach ys (i + 1) xs used'; (true :: r.1, r.2)
    | none => let r := matchAll reach ys (i + 1) xs used; (false :: r.1, r.2)

/-- The characters of `xs` whose mark is set. -/
def marked (xs : List Char) (marks : List Bool) : List Char :=
  ((xs.zip marks).filter (·.2)).map (·.1)

/-- The Jaro similarity, from 0 for nothing in common to 1 for equal texts. -/
def jaro (a b : String) : Float :=
  let xs := a.toList
  let ys := b.toList
  if xs.isEmpty && ys.isEmpty then 1.0
  else
    let reach := max xs.length ys.length / 2 - 1
    let (mx, my) := matchAll reach ys 0 xs (ys.map fun _ => false)
    let cx := marked xs mx
    let cy := marked ys my
    let m := cx.length
    let halfSwapped := ((cx.zip cy).filter fun p => p.1 != p.2).length / 2
    if m == 0 then 0.0
    else
      (m.toFloat / xs.length.toFloat + m.toFloat / ys.length.toFloat +
        (m - halfSwapped).toFloat / m.toFloat) / 3.0

/-- Two texts are similar when their Jaro similarity is above this. -/
def similarityThreshold : Float := 0.7

/-- The candidate most similar to `s`, if one is similar at all; of equally similar ones the last. -/
def mostSimilar (s : String) (candidates : List String) : Option String :=
  (candidates.foldl better none).map (·.2)
where
  /-- The better of the best so far and a new candidate. -/
  better (best : Option (Float × String)) (c : String) : Option (Float × String) :=
    let score := jaro s c
    if score > similarityThreshold then
      match best with
      | none => some (score, c)
      | some (top, _) => if score < top then best else some (score, c)
    else best

end CompilerDriver.Text
