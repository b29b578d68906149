import DocStore.Decimal
import DocStore.ObjectId

/-!
# Values and documents

A value is one of twenty-one kinds of data; a document is a list of named values in field order.
Both are plain data: that no document names a field twice is a predicate (`Value.uniqueKeys`), which
`Document.insert` keeps and `Document.ofPairs` therefore establishes.

* `Document.get?` is the value of a field, `Document.insert` sets one in its place or at the end;
  `Document.get?_insert_self` and `Document.get?_insert_of_ne` are the two laws between them.
* `Value.typeName` is the name of a value's kind in messages.
* `Document.startsWithOperator` tells a document of operators from data.
* `Value.leaves` are the values that are left when arrays are opened.
-/

namespace DocStore

/-- A datum of one of the kinds that documents hold. -/
inductive Value where
  | null
  | bool (b : Bool)
  | int (n : Int32)
  | long (n : Int64)
  | double (d : Double)
  | decimal (d : Decimal)
  | string (s : String)
  | array (items : List Value)
  | document (fields : List (String × Value))
  | objectId (id : ObjectId)
  /-- A moment, in milliseconds since the start of 1970. -/
  | date (millis : Int64)
  | timestamp (time increment : UInt32)
  | binary (subtype : UInt8) (bytes : List UInt8)
  | regex (pattern options : String)
  | javaScript (code : String)
  | javaScriptWithScope (code : String) (scope : List (String × Value))
  | symbol (name : String)
  | undefined
  | minKey
  | maxKey
  | dbPointer (target : String) (id : ObjectId)

/-- Named values in field order. -/
abbrev Document := List (String × Value)

/-- Whether a name is that of an operator. -/
def isOperatorName (name : String) : Bool := name.toList.head? == some '$'

namespace Document

/-! ## Fields -/

/-- The names of the fields, in order. -/
def keys (doc : Document) : List String := doc.map Prod.fst

/-- The value of a field. -/
def get? : Document → String → Option Value
  | [], _ => none
  | (k, v) :: rest, key => if k = key then some v else get? rest key

/-- Set a field: in its place when the document has it, at the end otherwise. -/
def insert : Document → String → Value → Document
  | [], key, value => [(key, value)]
  | (k, v) :: rest, key, value =>
    if k = key then (k, value) :: rest else (k, v) :: insert rest key value

/-- The document made by setting fields one after the other. -/
def ofPairs (pairs : List (String × Value)) : Document :=
  pairs.foldl (fun doc (key, value) => insert doc key value) []

@[simp] theorem get?_insert_self (doc : Document) (key : String) (value : Value) :
    (doc.insert key value).get? key = some value := by
  induction doc with
  | nil => simp [insert, get?]
  | cons field rest ih =>
    obtain ⟨k, v⟩ := field
    by_cases h : k = key <;> simp [insert, get?, h, ih]

@[simp] theorem get?_insert_of_ne (doc : Document) {key other : String} (value : Value)
    (h : key ≠ other) : (doc.insert key value).get? other = doc.get? other := by
  induction doc with
  | nil => simp [insert, get?, h]
  | cons field rest ih =>
    obtain ⟨k, v⟩ := field
    by_cases hk : k = key
    · subst hk
      simp [insert, get?, h]
    · simp only [insert, hk, if_false, get?, ih]

theorem get?_eq_none_iff {doc : Document} {key : String} :
    doc.get? key = none ↔ key ∉ doc.keys := by
  induction doc with
  | nil => simp [get?, keys]
  | cons field rest ih =>
    obtain ⟨k, v⟩ := field
    by_cases hk : k = key
    · simp [get?, keys, hk]
    · have hk' : ¬ key = k := fun e => hk e.symm
      simp only [get?, hk, if_false, ih, keys, List.map_cons, List.mem_cons, hk', false_or]

@[simp] theorem keys_insert_of_mem {doc : Document} {key : String} (value : Value)
    (h : key ∈ doc.keys) : (doc.insert key value).keys = doc.keys := by
  induction doc with
  | nil => simp [keys] at h
  | cons field rest ih =>
    obtain ⟨k, v⟩ := field
    by_cases hk : k = key
    · simp [insert, hk, keys]
    · have hk' : ¬ key = k := fun e => hk e.symm
      simp only [keys, List.map_cons, List.mem_cons, hk', false_or] at h
      simp only [insert, hk, if_false, keys, List.map_cons, List.cons.injEq, true_and]
      exact ih h

@[simp] theorem keys_insert_of_not_mem {doc : Document} {key : String} (value : Value)
    (h : key ∉ doc.keys) :
    (doc.insert key value).keys = doc.keys ++ [key] := by
  induction doc with
  | nil => simp [insert, keys]
  | cons field rest ih =>
    obtain ⟨k, v⟩ := field
    simp only [keys, List.map_cons, List.mem_cons, not_or] at h
    have hk : ¬ k = key := fun e => h.1 e.symm
    simp only [insert, hk, if_false, keys, List.map_cons, List.cons_append, List.cons.injEq,
      true_and]
    exact ih h.2

/-- Setting a field keeps the names apart. -/
theorem nodup_keys_insert {doc : Document} (key : String) (value : Value) (h : doc.keys.Nodup) :
    (doc.insert key value).keys.Nodup := by
  by_cases hk : key ∈ doc.keys
  · simpa [hk] using h
  · have hne : ∀ a ∈ doc.keys, a ≠ key := by
      rintro a ha rfl
      exact hk ha
    simpa [hk, List.nodup_append, h] using hne

/-- A document made field by field names no field twice. -/
theorem nodup_keys_ofPairs (pairs : List (String × Value)) : (ofPairs pairs).keys.Nodup := by
  suffices ∀ doc : Document, doc.keys.Nodup →
      (pairs.foldl (fun doc (key, value) => insert doc key value) doc).keys.Nodup from
    this [] (by simp [keys])
  induction pairs with
  | nil => exact fun doc h => h
  | cons field rest ih =>
    obtain ⟨k, v⟩ := field
    exact fun doc h => ih _ (nodup_keys_insert k v h)

/-- Whether the first field is named like an operator. -/
def startsWithOperator : Document → Bool
  | [] => false
  | (name, _) :: _ => isOperatorName name

end Document

namespace Value

/-! ## Kinds -/

/-- The name of a value's kind, as messages show it. -/
def typeName : Value → String
  | null => "null"
  | bool _ => "bool"
  | int _ => "int"
  | long _ => "long"
  | double _ => "double"
  | decimal _ => "decimal"
  | string _ => "string"
  | array _ => "array"
  | document _ => "object"
  | objectId _ => "objectId"
  | date _ => "date"
  | timestamp _ _ => "timestamp"
  | binary _ _ => "binData"
  | regex _ _ => "regex"
  | javaScript _ => "javascript"
  | javaScriptWithScope _ _ => "javascriptWithScope"
  | symbol _ => "symbol"
  | undefined => "undefined"
  | minKey => "minKey"
  | maxKey => "maxKey"
  | dbPointer _ _ => "dbPointer"

/-- Whether a value is an array. -/
def isArray : Value → Bool
  | array _ => true
  | _ => false

/-! ## Documents without a repeated name -/

mutual

/-- Whether no document inside a value, at any depth, names a field twice. -/
def uniqueKeys : Value → Bool
  | array items => uniqueKeysItems items
  | document fields => uniqueKeysFields fields
  | javaScriptWithScope _ scope => uniqueKeysFields scope
  | _ => true

/-- The same of every value of a list. -/
def uniqueKeysItems : List Value → Bool
  | [] => true
  | v :: rest => uniqueKeys v && uniqueKeysItems rest

/-- The same of every field, and no name is repeated. -/
def uniqueKeysFields : List (String × Value) → Bool
  | [] => true
  | (k, v) :: rest => !(Document.keys rest).contains k && uniqueKeys v && uniqueKeysFields rest

end

/-! ## Leaves -/

mutual

/-- The values that are not arrays, depth first and left to right: an array has those of its
elements and any other value is its own single leaf. -/
def leaves : Value → List Value
  | array items => leavesItems items
  | v => [v]

/-- The leaves of a list of values. -/
def leavesItems : List Value → List Value
  | [] => []
  | v :: rest => leaves v ++ leavesItems rest

end

@[simp] theorem leavesItems_eq (items : List Value) : leavesItems items = items.flatMap leaves := by
  induction items with
  | nil => rfl
  | cons v rest ih => simp [leavesItems, ih]

end Value

end DocStore
