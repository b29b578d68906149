import DocStore.Double
import DocStore.Text.Numeral

/-!
# Decimals

A decimal is not a number, an infinity, or a sign, a coefficient and an exponent of ten. Two
decimals with one value may differ in their exponents: `1.0` and `1.00` are two decimals.

* `Decimal.text` is the one way a decimal is written: with a point where the exponent is not
  positive and the number not below `10 ^ -6`, and otherwise with one digit before the point and the
  exponent after `E`.
* `Decimal.ofText?` reads what `Decimal.text` writes.
* `Decimal.toDouble` is the nearest double.
-/

namespace DocStore

/-- A decimal floating-point number. -/
inductive Decimal where
  | nan
  | infinity (negative : Bool)
  /-- The number `coefficient * 10 ^ exponent`, with a sign. -/
  | finite (negative : Bool) (coefficient : Nat) (exponent : Int)
  deriving DecidableEq

namespace Decimal

/-! ## Writing -/

/-- The exponent after `E`, which always shows its sign. -/
def exponentText (e : Int) : String :=
  if 0 ≤ e then "+" ++ toString e.toNat else "-" ++ toString (-e).toNat

/-- The digits of a coefficient with the exponent of ten applied. -/
def finiteText (coefficient : Nat) (exponent : Int) : String :=
  let digits := Nat.toDigits 10 coefficient
  let adjusted := exponent + (digits.length - 1 : Nat)
  if exponent ≤ 0 ∧ -6 ≤ adjusted then
    let places := (-exponent).toNat
    if places = 0 then String.ofList digits
    else if places < digits.length then
      String.ofList (digits.take (digits.length - places) ++ '.' ::
        digits.drop (digits.length - places))
    else String.ofList ('0' :: '.' :: (List.replicate (places - digits.length) '0' ++ digits))
  else
    let mantissa := match digits with
      | first :: second :: rest => first :: '.' :: second :: rest
      | digits => digits
    String.ofList mantissa ++ "E" ++ exponentText adjusted

/-- A decimal as text. -/
def text : Decimal → String
  | nan => "NaN"
  | infinity negative => (if negative then "-" else "") ++ "Infinity"
  | finite negative coefficient exponent =>
    (if negative then "-" else "") ++ finiteText coefficient exponent

/-! ## Reading -/

/-- The exponent in front of which stood an `E`: a number with an optional sign. -/
def readExponent? : List Char → Option Int
  | '-' :: digits => (Text.readNat? digits).map fun n => -(n : Int)
  | digits => (Text.readNat? (Text.dropPlus digits)).map fun n => (n : Int)

/-- Digits with an optional point among them, as a coefficient and the number of digits after the
point. -/
def readMantissa? (cs : List Char) : Option (Nat × Nat) := do
  let whole := cs.takeWhile (· ≠ '.')
  let places := (cs.dropWhile (· ≠ '.')).drop 1
  let coefficient ← Text.readNat? (whole ++ places)
  return (coefficient, places.length)

/-- A finite decimal with its sign taken off. -/
def readFinite? (negative : Bool) (cs : List Char) : Option Decimal := do
  let (coefficient, places) ← readMantissa? (cs.takeWhile (· ≠ 'E'))
  let exponent ← match cs.dropWhile (· ≠ 'E') with
    | [] => some 0
    | _ :: rest => readExponent? rest
  return finite negative coefficient (exponent - places)

/-- A decimal from its text. -/
def ofText? (s : String) : Option Decimal :=
  if s = "NaN" then some nan
  else if s = "Infinity" then some (infinity false)
  else if s = "-Infinity" then some (infinity true)
  else match s.toList with
    | '-' :: rest => readFinite? true rest
    | cs => readFinite? false cs

/-! ## As a number -/

/-- The nearest double. -/
def toDouble : Decimal → Double
  | nan => Double.nan
  | infinity negative => Double.infinity negative
  | finite negative coefficient exponent =>
    Double.ofRatio negative (coefficient * Nat.pow 10 exponent.toNat)
      (Nat.pow 10 (-exponent).toNat)

end Decimal

end DocStore
