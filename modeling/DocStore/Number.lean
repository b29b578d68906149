import DocStore.Double

/-!
# Numbers of two kinds

An integer of 64 bits is no double in general, and a double no integer. `Number` keeps a number as
the kind that it is, and `Number.compare` orders numbers of both kinds without making one of them
the other where a digit could be lost: a double is cut to an integer only within the range of the
integers, and there what is cut off decides between equals.
-/

namespace DocStore

/-- A number of one of two kinds. -/
inductive Number where
  | integer (n : Int64)
  | double (d : Double)

namespace Number

/-- The double `2 ^ 63`, the first one above all integers of 64 bits. -/
def int64Limit : Double := ⟨0x43e0000000000000⟩

/-- Whether a double is below `-2 ^ 63`, the least integer of 64 bits. -/
def belowInt64 (d : Double) : Bool := d.partialCompare int64Limit.neg == some .lt

/-- Whether a double is above all integers of 64 bits. -/
def aboveInt64 (d : Double) : Bool := (d.partialCompare int64Limit).any Ordering.isGE

/-- The order of an integer and a double; a NaN is below every integer. -/
def compareDouble (n : Int64) (d : Double) : Ordering :=
  if d.isNaN || belowInt64 d then .gt
  else if aboveInt64 d then .lt
  else
    let whole := d.trunc
    match compareOfLessAndEq n.toInt whole.toInt64.toInt with
    | .eq => (Double.zero.partialCompare (d.sub whole)).getD .eq
    | order => order

/-- The order of two numbers: NaNs are equal to one another and below every other number. -/
def compare : Number → Number → Ordering
  | integer m, integer n => compareOfLessAndEq m.toInt n.toInt
  | double a, double b =>
    match a.isNaN, b.isNaN with
    | true, true => .eq
    | true, false => .lt
    | false, true => .gt
    | false, false => (a.partialCompare b).getD .eq
  | integer n, double d => compareDouble n d
  | double d, integer n => (compareDouble n d).swap

end Number

end DocStore
