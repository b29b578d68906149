import DocStore.Json
import DocStore.Text.Numeral

/-!
# JSON numbers

A number without point and exponent that a `long` holds is an integer. Any other is a double,
computed from the digits in steps that each round: the leading digits that fit sixty-four bits as a
double, and then a product or a quotient by a power of ten no larger than `10 ^ 308`. A number too
large for a double is refused, one too small is zero; minus zero is a double.

* `Json.readNumber?` reads the longest number at the front of a text.
-/

namespace DocStore.Json

/-- Digits taken into a number while it stays below `2 ^ 64`: the number, how many digits were
taken, and the rest of the text. -/
def takeSignificand (n : Nat) : List Char → Nat × Nat × List Char
  | [] => (n, 0, [])
  | c :: rest =>
    match Text.digit? c with
    | some d =>
      if n * 10 + d < Nat.pow 2 64 then
        let (m, taken, tail) := takeSignificand (n * 10 + d) rest
        (m, taken + 1, tail)
      else (n, 0, c :: rest)
    | none => (n, 0, c :: rest)

/-- The largest power of ten that one step multiplies or divides by. -/
def maxPower : Nat := 308

/-- A double times a power of ten; none when that is too large. A large negative power is taken in
several steps, until the double is zero or the rest of the power is small enough for one. -/
def scale? (d : Double) (exponent : Int) : Option Double :=
  if d.isZero then some d
  else if (maxPower : Int) < exponent then none
  else if 0 ≤ exponent then
    let product := d.mul (Double.powTen exponent.toNat)
    if product.isInfinite then none else some product
  else if -(maxPower : Int) ≤ exponent then some (d.div (Double.powTen (-exponent).toNat))
  else scale? (d.div (Double.powTen maxPower)) (exponent + maxPower)
termination_by (-exponent).toNat
decreasing_by
  have : (maxPower : Int) = 308 := rfl
  omega

/-- A real number from its sign, its leading digits and a power of ten. -/
def real? (negative : Bool) (significand : Nat) (exponent : Int) : Option Json :=
  (scale? (Double.ofNat significand) exponent).map fun d => real (if negative then d.neg else d)

/-- A whole number from its sign and digits. -/
def whole (negative : Bool) (significand : Nat) : Json :=
  if negative then
    if significand = 0 ∨ Nat.pow 2 63 < significand then real (Double.ofNat significand).neg
    else integer (-significand)
  else if significand < Nat.pow 2 63 then integer significand
  else real (Double.ofNat significand)

/-- The exponent after an `e`: digits after an optional sign, and the rest of the text. -/
def readExponent? (cs : List Char) : Option (Int × List Char) := do
  let (negative, digits) := match cs with
    | '+' :: rest => (false, rest)
    | '-' :: rest => (true, rest)
    | _ => (false, cs)
  let n ← Text.readNat? (digits.takeWhile Text.isDigit)
  return (if negative then -n else n, digits.dropWhile Text.isDigit)

/-- A number whose significand has been read, with the power of ten it stands at. -/
def readPower? (negative : Bool) (significand : Nat) (exponent : Int) (cs : List Char) :
    Option (Json × List Char) := do
  match cs with
  | 'e' :: rest | 'E' :: rest =>
    let (power, tail) ← readExponent? rest
    return (← real? negative significand (exponent + power), tail)
  | _ => return (← real? negative significand exponent, cs)

/-- A number whose digits before the point have been read, of which `dropped` did not fit. -/
def readFraction? (negative : Bool) (significand dropped : Nat) (cs : List Char) :
    Option (Json × List Char) :=
  match cs with
  | '.' :: rest =>
    if (rest.takeWhile Text.isDigit).isEmpty then none
    else
      let (digits, taken, tail) := takeSignificand significand rest
      readPower? negative digits ((dropped : Int) - taken) (tail.dropWhile Text.isDigit)
  | 'e' :: _ | 'E' :: _ => readPower? negative significand dropped cs
  | _ =>
    if dropped = 0 then some (whole negative significand, cs)
    else readPower? negative significand dropped cs

/-- A number whose sign has been read. No digit may follow a zero in front. -/
def readUnsigned? (negative : Bool) (cs : List Char) : Option (Json × List Char) :=
  match cs with
  | '0' :: rest =>
    if (rest.takeWhile Text.isDigit).isEmpty then readFraction? negative 0 0 rest else none
  | _ =>
    if (cs.takeWhile Text.isDigit).isEmpty then none
    else
      let (significand, _, tail) := takeSignificand 0 cs
      readFraction? negative significand (tail.takeWhile Text.isDigit).length
        (tail.dropWhile Text.isDigit)

/-- The number at the front of a text, and the rest of it. -/
def readNumber? : List Char → Option (Json × List Char)
  | '-' :: rest => readUnsigned? true rest
  | cs => readUnsigned? false cs

end DocStore.Json
