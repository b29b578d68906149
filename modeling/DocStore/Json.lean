import DocStore.Catalog
import DocStore.Value

/-!
# JSON values

A JSON value keeps the members of its objects as they stand in the text, in their order and with
repeated names. As a value of the store an object is a document whose fields are in the order of
their names, the last member of a name standing for all of them.

* `Json.toValue` is that reading. A whole number is an `int` where it fits and a `long` otherwise.
-/

namespace DocStore

/-- A JSON value, its objects in text order. -/
inductive Json where
  | null
  | bool (b : Bool)
  /-- A number written as an integer that a `long` holds. -/
  | integer (n : Int)
  | real (d : Double)
  | string (s : String)
  | array (items : List Json)
  | object (members : List (String × Json))

namespace Json

/-- A whole number as an `int` where it fits and as a `long` otherwise. -/
def ofInteger (n : Int) : Value :=
  if -(Nat.pow 2 31 : Int) ≤ n ∧ n < Nat.pow 2 31 then .int (Int32.ofInt n)
  else .long (Int64.ofInt n)

mutual

/-- A JSON value as a value of the store. -/
def toValue : Json → Value
  | null => .null
  | bool b => .bool b
  | integer n => ofInteger n
  | real d => .double d
  | string s => .string s
  | array items => .array (toValues items)
  | object members => .document (Catalog.ofPairs (toFields members))

/-- The elements of an array. -/
def toValues : List Json → List Value
  | [] => []
  | v :: rest => toValue v :: toValues rest

/-- The members of an object, in text order. -/
def toFields : List (String × Json) → List (String × Value)
  | [] => []
  | (k, v) :: rest => (k, toValue v) :: toFields rest

end

end Json

end DocStore
