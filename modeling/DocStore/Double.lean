import DocStore.Rounding
import DocStore.Text.Numeral

/-!
# Doubles

A double is kept as its 64 bits and computed with in exact integer arithmetic: every finite double
is a whole number of *units* of `2⁻¹⁰⁷⁴`, so its value is an `Int` (`Double.units`) and no rounding
happens except where a number that is no double has to become one.

* `Double.ofRatio` is the double nearest to a quotient, ties to the even mantissa, beyond the
  largest double an infinity and below half the smallest one a zero.
* `Double.ofNat`, `Double.mul`, `Double.div` and `Double.sub` are `ofRatio` of exact quotients.
* `Double.partialCompare` is the order of doubles, in which a NaN stands in no relation.
* `Double.trunc` takes the fraction off a double, and `Double.toInt64` makes it an integer.
* `Double.ieeeEqual` is the equality in which a NaN differs from itself and the two zeros agree;
  `Double.isZero_iff` says which two bit patterns these are.
-/

namespace DocStore

/-- A double-precision number, as its 64 bits. -/
structure Double where
  bits : UInt64
  deriving DecidableEq

namespace Double

/-- The number of units in one: a unit is `2⁻¹⁰⁷⁴`, the smallest positive double. -/
def unitsPerOne : Nat := Nat.pow 2 1074

/-! ## Fields of the bit pattern -/

/-- Whether the sign bit is set. -/
def negative (d : Double) : Bool := Nat.pow 2 63 ≤ d.bits.toNat

/-- The eleven bits of the exponent. -/
def exponentField (d : Double) : Nat := d.bits.toNat / Nat.pow 2 52 % Nat.pow 2 11

/-- The fifty-two bits of the fraction. -/
def fraction (d : Double) : Nat := d.bits.toNat % Nat.pow 2 52

/-- An all-ones exponent with a fraction is no number. -/
def isNaN (d : Double) : Bool := d.exponentField == 2047 && d.fraction != 0

/-- An all-ones exponent without a fraction is an infinity. -/
def isInfinite (d : Double) : Bool := d.exponentField == 2047 && d.fraction == 0

/-- The magnitude of a finite double, in units. -/
def magnitude (d : Double) : Nat :=
  if d.exponentField = 0 then d.fraction
  else (Nat.pow 2 52 + d.fraction) * Nat.pow 2 (d.exponentField - 1)

/-- The value of a finite double, in units. -/
def units (d : Double) : Int :=
  if d.negative then -(d.magnitude : Int) else d.magnitude

/-- The zero with the plus sign. -/
def zero : Double := ⟨0⟩

/-- The one NaN that is written. -/
def nan : Double := ⟨0x7ff8000000000000⟩

/-- The infinity of a sign. -/
def infinity (negative : Bool) : Double :=
  if negative then ⟨0xfff0000000000000⟩ else ⟨0x7ff0000000000000⟩

/-- A double with every NaN made the one that is written. -/
def canonical (d : Double) : Double := if d.isNaN then nan else d

/-! ## Rounding to a double -/

/-- The double of a sign whose magnitude is `mantissa * 2 ^ shift` units, for a mantissa of at most
`2 ^ 53` that is at least `2 ^ 52` unless `shift` is zero. The exponent field of such a number is
`shift` with the leading bit of the mantissa added, so the sum below is the pattern also when a
mantissa was rounded up to `2 ^ 53`; a pattern beyond the largest double is cut to infinity. -/
def ofMantissa (negative : Bool) (mantissa shift : Nat) : Double :=
  let magnitude := min (shift * Nat.pow 2 52 + mantissa) (2047 * Nat.pow 2 52)
  ⟨UInt64.ofNat ((if negative then Nat.pow 2 63 else 0) + magnitude)⟩

/-- The double nearest to `num / den`, with a sign. -/
def ofRatio (negative : Bool) (num den : Nat) : Double :=
  let scaled := num * unitsPerOne
  let shift := (scaled / den).log2 - 52
  ofMantissa negative (roundDiv scaled (den * Nat.pow 2 shift)) shift

/-- The double nearest to a natural number. -/
def ofNat (n : Nat) : Double := ofRatio false n 1

/-- The double nearest to `10 ^ n`. -/
def powTen (n : Nat) : Double := ofRatio false (Nat.pow 10 n) 1

/-- Change of sign. -/
def neg (d : Double) : Double := ⟨d.bits ^^^ 0x8000000000000000⟩

/-- The product of the magnitudes of two finite doubles, rounded. -/
def mul (a b : Double) : Double :=
  ofRatio false (a.magnitude * b.magnitude) (unitsPerOne * unitsPerOne)

/-- The quotient of the magnitudes of two finite doubles, the second not zero, rounded. -/
def div (a b : Double) : Double := ofRatio false a.magnitude b.magnitude

/-- The difference of two finite doubles, rounded. Of two equal ones it is zero, with the minus sign
only for a negative zero less a positive one. -/
def sub (a b : Double) : Double :=
  let difference := a.units - b.units
  let negative := if difference = 0 then a.negative && !b.negative else difference < 0
  ofRatio negative difference.natAbs unitsPerOne

/-! ## Order -/

/-- The order of two doubles; a NaN has none with any. The pattern of an infinity, read as if it
were one of a finite double, gives a magnitude of `2 ^ 1024`, which is beyond all the others. -/
def partialCompare (a b : Double) : Option Ordering :=
  if a.isNaN || b.isNaN then none else some (compareOfLessAndEq a.units b.units)

/-! ## Whole part -/

/-- The double with its fraction taken off and its sign kept. An exponent field below 1023 leaves no
whole part, one of 1075 or more no fraction; between them the last `1075 - exponentField` bits are
the fraction. -/
def trunc (d : Double) : Double :=
  if d.exponentField < 1023 then ⟨if d.negative then 0x8000000000000000 else 0⟩
  else if 1075 ≤ d.exponentField then d
  else
    let step := Nat.pow 2 (1075 - d.exponentField)
    ⟨UInt64.ofNat (d.bits.toNat / step * step)⟩

/-- The whole part as an integer of 64 bits: beyond their range the nearest of them, of a NaN
zero. -/
def toInt64 (d : Double) : Int64 :=
  if d.isNaN then 0 else Int64.ofIntClamp (d.units.tdiv unitsPerOne)

/-! ## Equality of numbers with a NaN unlike itself -/

/-- Equality of the numbers two doubles stand for: a NaN equals nothing and the zeros agree. -/
def ieeeEqual (a b : Double) : Bool :=
  !a.isNaN && !b.isNaN && (a == b || (a.magnitude == 0 && b.magnitude == 0))

/-- Whether the double is a zero of either sign. -/
def isZero (d : Double) : Bool := d.magnitude == 0

theorem magnitude_eq_zero_iff {d : Double} :
    d.magnitude = 0 ↔ d.bits.toNat = 0 ∨ d.bits.toNat = 9223372036854775808 := by
  have hlt : d.bits.toNat < 18446744073709551616 := d.bits.toNat_lt
  have h52 : Nat.pow 2 52 = 4503599627370496 := by decide
  have h11 : Nat.pow 2 11 = 2048 := by decide
  unfold magnitude
  split <;> rename_i he <;> simp only [exponentField, fraction, h52, h11] at he ⊢
  · omega
  · have hpos : 0 < Nat.pow 2 (d.bits.toNat / 4503599627370496 % 2048 - 1) := Nat.two_pow_pos _
    simp only [Nat.mul_eq_zero]
    omega

/-- The two zeros. -/
theorem isZero_iff {d : Double} : d.isZero = true ↔ d = ⟨0⟩ ∨ d = ⟨0x8000000000000000⟩ := by
  rw [isZero, beq_iff_eq, magnitude_eq_zero_iff]
  obtain ⟨bits⟩ := d
  simp only [Double.mk.injEq, ← UInt64.toNat_inj]
  rfl

theorem isNaN_eq_false_of_isZero {d : Double} (h : d.isZero = true) : d.isNaN = false := by
  have h52 : Nat.pow 2 52 = 4503599627370496 := by decide
  have h11 : Nat.pow 2 11 = 2048 := by decide
  have he : d.exponentField ≠ 2047 := by
    have hbits := magnitude_eq_zero_iff.1 (beq_iff_eq.1 h)
    simp only [exponentField, h52, h11]
    omega
  simp [isNaN, he]

/-! ## The bits as text -/

/-- The bits as sixteen hexadecimal digits. -/
def hex (d : Double) : String :=
  let digits := Nat.toDigits 16 d.bits.toNat
  String.ofList (List.replicate (16 - digits.length) '0' ++ digits)

/-- The double whose bits sixteen hexadecimal digits write. -/
def ofHex? (s : String) : Option Double := do
  let digits ← s.toList.mapM Text.hexDigit?
  if digits.length = 16 then some ⟨UInt64.ofNat (Text.ofDigits 16 digits)⟩ else none

end Double

end DocStore
