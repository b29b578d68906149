import DocStore.Path
import DocStore.Value.Order

/-!
# Filters

A filter is a condition on documents: a test of the values at one path, or a combination of filters.

* `Filter.fulfilledBy` says whether a document fulfils a filter. A test looks at the values that
  `Document.reached` lists; most tests also look into arrays among them (`Value.candidates`).
* `Filter.typeName` is the name of a filter's outermost operator.
-/

namespace DocStore

/-- A comparison of values. -/
inductive Comparison where
  | eq
  | ne
  | gt
  | gte
  | lt
  | lte
  deriving DecidableEq

/-- The operator that writes a comparison. -/
def Comparison.name : Comparison → String
  | eq => "$eq"
  | ne => "$ne"
  | gt => "$gt"
  | gte => "$gte"
  | lt => "$lt"
  | lte => "$lte"

/-- Whether an order of two values fulfils a range comparison. Equality is no range. -/
def Comparison.admits : Comparison → Ordering → Bool
  | gt, o => o == .gt
  | gte, o => o != .lt
  | lt, o => o == .lt
  | lte, o => o != .gt
  | eq, _ | ne, _ => false

/-- A condition on documents. -/
inductive Filter where
  /-- Every document. -/
  | always
  | and (filters : List Filter)
  | or (filters : List Filter)
  /-- No filter of the list. -/
  | nor (filters : List Filter)
  | not (filter : Filter)
  /-- The path leads to a value, or to none. -/
  | presence (path : String) (expected : Bool)
  | oneOf (path : String) (values : List Value)
  | noneOf (path : String) (values : List Value)
  | compare (path : String) (op : Comparison) (value : Value)

namespace Filter

/-- The number of values that a membership test looks at. -/
def maxSetSize : Nat := 1000

/-- Equality of the value at a path. -/
def equality (path : String) (value : Value) : Filter := compare path .eq value

/-- The conjunction of clauses: of none everything, of one the clause itself. -/
def allOf : List Filter → Filter
  | [] => always
  | [clause] => clause
  | clauses => and clauses

/-- The name of the outermost operator. -/
def typeName : Filter → String
  | always => "true"
  | and _ => "$and"
  | or _ => "$or"
  | nor _ => "$nor"
  | not _ => "$not"
  | presence _ _ => "$exists"
  | oneOf _ _ => "$in"
  | noneOf _ _ => "$nin"
  | compare _ op _ => op.name

end Filter

/-! ## Tests of one path -/

/-- The values that a test is made on: an array gives its elements, any other value itself. -/
def Value.candidates : Value → List Value
  | .array items => items
  | v => [v]

namespace Document

/-- Whether the value at a path equals a value: null equals also an absent field, and an array is
equal as a whole or by one of its elements. -/
def equalsAt (doc : Document) (path : String) (value : Value) : Bool :=
  match doc.reached path with
  | [] => match value with
    | .null => true
    | _ => false
  | found => found.any (·.equal value) || (found.flatMap Value.candidates).any (·.equal value)

/-- Whether the value at a path equals one of a list, of which only the first `Filter.maxSetSize`
are looked at. -/
def equalsOneAt (doc : Document) (path : String) (values : List Value) : Bool :=
  (values.take Filter.maxSetSize).any (doc.equalsAt path)

/-- Whether some value at a path stands to a value in an order that a range comparison admits. -/
def inRangeAt (doc : Document) (path : String) (op : Comparison) (value : Value) : Bool :=
  ((doc.reached path).flatMap Value.candidates).any fun v =>
    match v.compare? value with
    | some order => op.admits order
    | none => false

/-- A comparison of the value at a path. -/
def comparesAt (doc : Document) (path : String) (op : Comparison) (value : Value) : Bool :=
  match op with
  | .eq => doc.equalsAt path value
  | .ne => !doc.equalsAt path value
  | .gt | .gte | .lt | .lte => doc.inRangeAt path op value

end Document

/-! ## Fulfilment -/

namespace Filter

mutual

/-- Whether a document fulfils a filter. -/
def fulfilledBy : Filter → Document → Bool
  | always, _ => true
  | and filters, doc => allFulfilledBy filters doc
  | or filters, doc => anyFulfilledBy filters doc
  | nor filters, doc => !anyFulfilledBy filters doc
  | not filter, doc => !fulfilledBy filter doc
  | presence path expected, doc => !(doc.reached path).isEmpty == expected
  | oneOf path values, doc => doc.equalsOneAt path values
  | noneOf path values, doc => !doc.equalsOneAt path values
  | compare path op value, doc => doc.comparesAt path op value

/-- Whether a document fulfils every filter of a list. -/
def allFulfilledBy : List Filter → Document → Bool
  | [], _ => true
  | f :: rest, doc => fulfilledBy f doc && allFulfilledBy rest doc

/-- Whether a document fulfils some filter of a list. -/
def anyFulfilledBy : List Filter → Document → Bool
  | [], _ => false
  | f :: rest, doc => fulfilledBy f doc || anyFulfilledBy rest doc

end

@[simp] theorem allFulfilledBy_eq (filters : List Filter) (doc : Document) :
    allFulfilledBy filters doc = filters.all (·.fulfilledBy doc) := by
  induction filters with
  | nil => rfl
  | cons f rest ih => simp [allFulfilledBy, ih]

@[simp] theorem anyFulfilledBy_eq (filters : List Filter) (doc : Document) :
    anyFulfilledBy filters doc = filters.any (·.fulfilledBy doc) := by
  induction filters with
  | nil => rfl
  | cons f rest ih => simp [anyFulfilledBy, ih]

@[simp] theorem fulfilledBy_allOf (clauses : List Filter) (doc : Document) :
    (allOf clauses).fulfilledBy doc = clauses.all (·.fulfilledBy doc) := by
  match clauses with
  | [] => rfl
  | [clause] => simp [allOf]
  | f :: g :: rest => simp [allOf, fulfilledBy]

end Filter

end DocStore
