import DocStore.Number
import DocStore.Value

/-!
# Equality and order of values

Numbers of all four kinds have one order (`Number.compare`): integers and doubles are compared
exactly, and a decimal stands where the nearest double stands.

* `Value.equal` is structural equality with numbers compared in that order: arrays element by
  element, documents field by field in order, everything else strictly.
* `Value.identical` is the strict equality: numbers of different kinds differ, a NaN differs from
  itself, and documents are compared without regard to field order.
* `Value.compare?` orders numbers, texts, booleans, dates, object identifiers and null, each class
  within itself.
-/

namespace DocStore

namespace Value

/-- The number that a value is, a decimal as the nearest double; other values are none. -/
def number? : Value → Option Number
  | int n => some (.integer n.toInt64)
  | long n => some (.integer n)
  | double d => some (.double d)
  | decimal d => some (.double d.toDouble)
  | _ => none

/-! ## Strict equality -/

mutual

/-- Strict equality: same kind, same content, doubles as numbers with a NaN unlike itself, documents
without regard to field order. -/
def identical : Value → Value → Bool
  | null, null => true
  | bool a, bool b => a == b
  | int a, int b => a == b
  | long a, long b => a == b
  | double a, double b => a.ieeeEqual b
  | decimal a, decimal b => a == b
  | string a, string b => a == b
  | array xs, array ys => identicalItems xs ys
  | document xs, document ys => xs.length == ys.length && identicalFields xs ys
  | objectId a, objectId b => a == b
  | date a, date b => a == b
  | timestamp t i, timestamp u j => t == u && i == j
  | binary s bytes, binary t bytes' => s == t && bytes == bytes'
  | regex p o, regex q o' => p == q && o == o'
  | javaScript a, javaScript b => a == b
  | javaScriptWithScope a xs, javaScriptWithScope b ys =>
    a == b && xs.length == ys.length && identicalFields xs ys
  | symbol a, symbol b => a == b
  | undefined, undefined => true
  | minKey, minKey => true
  | maxKey, maxKey => true
  | dbPointer t a, dbPointer u b => t == u && a == b
  | _, _ => false

/-- Strict equality of two lists, element by element. -/
def identicalItems : List Value → List Value → Bool
  | [], [] => true
  | x :: xs, y :: ys => identical x y && identicalItems xs ys
  | _, _ => false

/-- Whether every field of the first document is strictly equal to the field of its name in the
second. -/
def identicalFields : List (String × Value) → List (String × Value) → Bool
  | [], _ => true
  | (k, x) :: xs, ys =>
    (match Document.get? ys k with
      | some y => identical x y
      | none => false) && identicalFields xs ys

end

/-! ## Equality across the kinds of numbers -/

/-- Equality of two values neither of which is looked into: numbers by their order, others
strictly. -/
def equalAtoms (a b : Value) : Bool :=
  match a.number?, b.number? with
  | some x, some y => x.compare y == .eq
  | _, _ => identical a b

mutual

/-- Structural equality with numbers compared by their order. -/
def equal : Value → Value → Bool
  | array xs, array ys => equalItems xs ys
  | document xs, document ys => equalFields xs ys
  | a, b => equalAtoms a b

/-- Equality of two lists, element by element. -/
def equalItems : List Value → List Value → Bool
  | [], [] => true
  | x :: xs, y :: ys => equal x y && equalItems xs ys
  | _, _ => false

/-- Equality of two documents, field by field in order. -/
def equalFields : List (String × Value) → List (String × Value) → Bool
  | [], [] => true
  | (k, x) :: xs, (l, y) :: ys => k == l && equal x y && equalFields xs ys
  | _, _ => false

end

/-! ## Order -/

/-- The order of two values of one comparable class; across classes there is none. -/
def compare? (a b : Value) : Option Ordering :=
  match a.number?, b.number? with
  | some x, some y => some (x.compare y)
  | _, _ =>
    match a, b with
    | string s, string t => some (compareOfLessAndEq s t)
    | bool x, bool y => some (compareOfLessAndEq x.toNat y.toNat)
    | date s, date t => some (compareOfLessAndEq s.toInt t.toInt)
    | objectId x, objectId y => some (compareOfLessAndEq x.bits.toNat y.bits.toNat)
    | null, null => some .eq
    | _, _ => none

end Value

end DocStore
