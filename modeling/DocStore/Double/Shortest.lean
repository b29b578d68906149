import DocStore.Double

/-!
# The shortest decimal of a double

Every finite double other than zero lies in an interval of numbers that round to it. The decimal
that writes it is a point of that interval on the coarsest grid of multiples of a power of ten that
has one, the nearest such point, the upper of two equally near.

* `Double.Interval` holds a positive double with its interval, in quarters of a unit.
* `Double.Interval.hit?` is the point of one grid that writes the double, if the grid has one.
* `Double.decimal` is the number `n * 10 ^ k` on the coarsest grid, as the pair of `n` and `k`.
* `Double.text` writes it with a point and never with an exponent.
-/

namespace DocStore.Double

/-- A positive number with the interval of the numbers that round to it, in quarters of a unit. -/
structure Interval where
  value : Nat
  low : Nat
  high : Nat
  /-- Whether the two ends belong to the interval. -/
  closed : Bool

/-- The interval of a finite double that is not zero. The gap below a power of two is half the gap
above it, except where the gap is a whole unit already. -/
def interval (d : Double) : Interval :=
  let gap := Nat.pow 2 (d.exponentField - 1)
  let below := if d.fraction = 0 ∧ 1 < d.exponentField then gap else 2 * gap
  { value := 4 * d.magnitude
    low := 4 * d.magnitude - below
    high := 4 * d.magnitude + 2 * gap
    closed := d.fraction % 2 == 0 }

namespace Interval

/-- Whether a number, in quarters of a unit over a common scale, lies in the interval. -/
def contains (i : Interval) (scale point : Nat) : Bool :=
  if i.closed then i.low * scale ≤ point && point ≤ i.high * scale
  else i.low * scale < point && point < i.high * scale

/-- The multiple of `10 ^ k` in the interval that is nearest to its value, the upper of two equally
near, as the factor before the power. -/
def hit? (i : Interval) (k : Int) : Option Nat :=
  let scale := Nat.pow 10 (-k).toNat
  let step := Nat.pow 10 k.toNat * (4 * unitsPerOne)
  let n := i.value * scale / step
  let lower := n ≠ 0 && i.contains scale (n * step)
  let upper := i.contains scale ((n + 1) * step)
  if lower && upper then
    if 2 * (i.value * scale - n * step) < step then some n else some (n + 1)
  else if lower then some n
  else if upper then some (n + 1)
  else none

/-- The hit on the coarsest of the grids `10 ^ k`, `10 ^ (k - 1)`, … that has one, with its
exponent. -/
def coarsest (i : Interval) : Nat → Int → Nat × Int
  | 0, k => (0, k)
  | tries + 1, k =>
    match i.hit? k with
    | some n => (n, k)
    | none => i.coarsest tries (k - 1)

end Interval

/-- The factor and the exponent of the decimal that writes a finite double other than zero. No
double reaches `10 ^ 309`, and none needs a digit below `10 ^ -342`. -/
def decimal (d : Double) : Nat × Int := d.interval.coarsest 652 309

/-- The digits of `n * 10 ^ k` with a point where it is needed. -/
def positional (n : Nat) (k : Int) : List Char :=
  let digits := Nat.toDigits 10 n
  let places := (-k).toNat
  if places = 0 then digits ++ List.replicate k.toNat '0'
  else if places < digits.length then
    digits.take (digits.length - places) ++ '.' :: digits.drop (digits.length - places)
  else '0' :: '.' :: (List.replicate (places - digits.length) '0' ++ digits)

/-- A double in decimal, never with an exponent and with a fraction only where it has one. -/
def text (d : Double) : String :=
  let sign := if d.negative then "-" else ""
  if d.isNaN then "NaN"
  else if d.isInfinite then sign ++ "inf"
  else if d.isZero then sign ++ "0"
  else
    let (n, k) := d.decimal
    sign ++ String.ofList (positional n k)

end DocStore.Double
