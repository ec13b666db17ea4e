/-!
The shortest decimal that reads back as a given binary floating-point number.

A finite number is `m * 2 ^ q`. Every decimal between the midpoints to its two neighbours reads back as it, the
midpoints themselves too when `m` is even. Among the decimals with the fewest digits in that interval the one
nearest to the number is taken.
-/
namespace CompilerDriver.Decimal

/-- A positive number as a quotient of naturals. -/
structure Quotient where
  num : Nat
  den : Nat

/-- `n * 2 ^ q`. -/
def Quotient.scaled (n : Nat) (q : Int) : Quotient :=
  if 0 ≤ q then ⟨n * Nat.pow 2 q.toNat, 1⟩ else ⟨n, Nat.pow 2 (-q).toNat⟩

/-- The numbers that read back as the same floating-point number. -/
structure Interval where
  low : Quotient
  high : Quotient
  /-- The two ends belong to the interval. -/
  closed : Bool

/-- A decimal `digits * 10 ^ exponent`. -/
structure Digits where
  digits : Nat
  exponent : Int
deriving DecidableEq, Repr

/-- `digits * 10 ^ exponent` as a quotient. -/
def Digits.toQuotient (d : Digits) : Quotient :=
  if 0 ≤ d.exponent then ⟨d.digits * Nat.pow 10 d.exponent.toNat, 1⟩
  else ⟨d.digits, Nat.pow 10 (-d.exponent).toNat⟩

/-- The decimal lies in the interval. -/
def Interval.contains (i : Interval) (d : Digits) : Bool :=
  let x := d.toQuotient
  let atLeast := i.low.num * x.den
  let atMost := i.high.num * x.den
  if i.closed then atLeast ≤ x.num * i.low.den && x.num * i.high.den ≤ atMost
  else atLeast < x.num * i.low.den && x.num * i.high.den < atMost

/-- The numbers that read back as `m * 2 ^ q`. Below the least `m` of full precision the numbers are twice as
dense, unless `q` is already the least exponent. -/
def Interval.around (m : Nat) (q : Int) (leastMantissa : Bool) : Interval where
  low := if leastMantissa then .scaled (4 * m - 1) (q - 2) else .scaled (2 * m - 1) (q - 1)
  high := .scaled (2 * m + 1) (q - 1)
  closed := m % 2 == 0

/-- The largest `e` with `10 ^ e ≤ x`, for `x` above `10 ^ (-400)`. -/
def leadingExponent (x : Quotient) : Int :=
  ((toString (x.num * Nat.pow 10 400 / x.den)).length : Int) - 401

/-- The whole number of steps of `10 ^ k` below `x`, and whether `x` is nearer to the next one. -/
def onGrid (x : Quotient) (k : Int) : Nat × Bool :=
  let (a, b) := if 0 ≤ k then (x.num, x.den * Nat.pow 10 k.toNat) else (x.num * Nat.pow 10 (-k).toNat, x.den)
  (a / b, 2 * (a % b) > b)

/-- The better of the two neighbours of `x` on the grid of `10 ^ k`, if one lies in the interval. -/
def onGrid? (i : Interval) (x : Quotient) (k : Int) : Option Digits :=
  let (below, up) := onGrid x k
  let d : Digits := ⟨below, k⟩
  let u : Digits := ⟨below + 1, k⟩
  match i.contains d, i.contains u with
  | true, true => some (if up then u else d)
  | true, false => some d
  | false, true => some u
  | false, false => none

/-- The shortest decimal in the interval around `x`: the first hit on ever finer grids. -/
def shortestIn (i : Interval) (x : Quotient) : Digits :=
  let e := leadingExponent x
  let hits := (List.range 17).filterMap fun (n : Nat) => onGrid? i x (e - n)
  hits.headD ⟨(onGrid x (e - 16)).1, e - 16⟩

/-- Without zeros at the end, as far as there are. -/
def Digits.trimmed (d : Digits) : Digits :=
  go (d.digits + 1) d
where
  go : Nat → Digits → Digits
    | 0, d => d
    | fuel + 1, d => if d.digits ≠ 0 ∧ d.digits % 10 = 0 then go fuel ⟨d.digits / 10, d.exponent + 1⟩ else d

/-- The shortest decimal of the positive finite number with these bits. -/
def ofBits (bits : Nat) : Digits :=
  let fraction : Nat := bits % Nat.pow 2 52
  let biased : Nat := bits / Nat.pow 2 52 % Nat.pow 2 11
  let (m, q) : Nat × Int :=
    if biased = 0 then (fraction, -1074) else (Nat.pow 2 52 + fraction, Int.ofNat biased - 1075)
  let i := Interval.around m q (fraction == 0 && biased > 1)
  (shortestIn i (.scaled m q)).trimmed

/-- How a decimal is written: from which leading exponents on it is positional, and when it is not. -/
structure Format where
  /-- The least leading exponent that is written without a power of ten. -/
  leastPositional : Int
  /-- The greatest one. -/
  greatestPositional : Int

/-- `d` in digits: positional inside the bounds of the format, with a fraction of at least one digit; else one
digit before the point and a signed power of ten. -/
def Format.write (f : Format) (d : Digits) : String :=
  let ds := (toString d.digits).toList
  let lead : Int := d.exponent + ds.length - 1
  if f.leastPositional ≤ lead ∧ lead ≤ f.greatestPositional then
    if 0 ≤ d.exponent then String.ofList (ds ++ List.replicate d.exponent.toNat '0') ++ ".0"
    else if 0 ≤ lead then
      String.ofList (ds.take (lead.toNat + 1) ++ ['.'] ++ ds.drop (lead.toNat + 1))
    else "0." ++ String.ofList (List.replicate (-lead - 1).toNat '0' ++ ds)
  else
    let fraction := if ds.length = 1 then [] else '.' :: ds.tail
    let sign := if lead < 0 then "-" else "+"
    String.ofList (ds.take 1 ++ fraction) ++ "e" ++ sign ++ toString lead.natAbs

/-- A finite floating-point number in a format, with its sign also for zero. -/
def Format.writeFloat (f : Format) (x : Float) : String :=
  let bits := x.toBits.toNat
  let sign := if bits ≥ Nat.pow 2 63 then "-" else ""
  let magnitude := bits % Nat.pow 2 63
  sign ++ if magnitude = 0 then "0.0" else f.write (ofBits magnitude)

end CompilerDriver.Decimal
