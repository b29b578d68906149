import DocStore.Failure
import DocStore.Filter

/-!
# Filters from documents

A filter document is the conjunction of its fields. A field named by a logical operator holds a list
of filter documents, any other field is a path with the value it has to equal or a document of
operators on that path. A document is one of operators when its first field is named like an
operator.

* `Filter.ofDocument` reads a filter document, or says what is wrong with it.

Fields are read in order and the first fault is reported; only the number of fields of a document is
looked at before them.
-/

namespace DocStore.Filter

/-- The number of fields that a filter document may have, and of entries that are read of the list
under a logical operator. -/
def maxClauses : Nat := 128

/-- Whether the operand of a presence test asks for presence. -/
def asksPresence : Value → Bool
  | .bool b => b
  | .int n => n != 0
  | .long n => n != 0
  | .double d => d.isNaN || !d.isZero
  | .null | .undefined => false
  | _ => true

/-- The values of a membership test, of which only the first `maxSetSize` are kept. -/
def readSet (operator : String) : Value → Except QueryFault (List Value)
  | .array values => .ok (values.take maxSetSize)
  | _ => .error (.setNotArray operator)

/-! ## Operators on one path -/

/-- The comparison that an operator writes. -/
def comparison? (operator : String) : Option Comparison :=
  if operator = "$eq" then some .eq
  else if operator = "$ne" then some .ne
  else if operator = "$gt" then some .gt
  else if operator = "$gte" then some .gte
  else if operator = "$lt" then some .lt
  else if operator = "$lte" then some .lte
  else none

/-- One operator other than negation with its operand, on a path. -/
def readTest (path operator : String) (operand : Value) : Except QueryFault Filter :=
  match comparison? operator with
  | some op => .ok (compare path op operand)
  | none =>
    if operator = "$in" then (readSet operator operand).map (oneOf path)
    else if operator = "$nin" then (readSet operator operand).map (noneOf path)
    else if operator = "$exists" then .ok (presence path (asksPresence operand))
    else .error (.unknownOperator operator)

mutual

/-- The operators of a document, in order, as clauses on a path. -/
def readOperators (path : String) : List (String × Value) → Except QueryFault (List Filter)
  | [] => .ok []
  | (operator, operand) :: rest => do
    let clause ← if operator = "$not" then readNegation path operand
      else readTest path operator operand
    let clauses ← readOperators path rest
    return clause :: clauses

/-- The operand of a negation, which has to be a document of operators. -/
def readNegation (path : String) : Value → Except QueryFault Filter
  | .document fields =>
    if Document.startsWithOperator fields then do
      let clauses ← readOperators path fields
      return not (allOf clauses)
    else .error .negatedNotOperators
  | _ => .error .negatedNotOperators

end

/-- A path with its value: operators when the value is a document of operators, otherwise the value
that has to be equal. -/
def readPath (path : String) (value : Value) : Except QueryFault Filter :=
  match value with
  | .document fields =>
    if Document.startsWithOperator fields then (readOperators path fields).map allOf
    else .ok (equality path value)
  | _ => .ok (equality path value)

/-! ## Filter documents -/

/-- The combination that a logical operator makes of the filters under it. -/
def combination? (operator : String) : Option (List Filter → Filter) :=
  if operator = "$and" then some and
  else if operator = "$or" then some or
  else if operator = "$nor" then some nor
  else none

mutual

/-- The fields of a filter document, in order. -/
def readClauses : List (String × Value) → Except QueryFault (List Filter)
  | [] => .ok []
  | (key, value) :: rest => do
    let clause ← match combination? key with
      | some combine => do
        let filters ← readList key value
        pure (combine filters)
      | none => if isOperatorName key then .error (.unknownTopLevel key) else readPath key value
    let clauses ← readClauses rest
    return clause :: clauses

/-- The list under a logical operator, of which only the first `maxClauses` entries are read. -/
def readList (operator : String) : Value → Except QueryFault (List Filter)
  | .array items =>
    if items.isEmpty then .error (.emptyArray operator) else readEntries operator maxClauses items
  | _ => .error (.notArray operator)

/-- At most `limit` entries of the list under a logical operator. -/
def readEntries (operator : String) (limit : Nat) : List Value → Except QueryFault (List Filter)
  | [] => .ok []
  | item :: rest =>
    if limit = 0 then .ok []
    else do
      let filter ← readEntry operator item
      let filters ← readEntries operator (limit - 1) rest
      return filter :: filters

/-- One entry of the list under a logical operator: a filter document. -/
def readEntry (operator : String) : Value → Except QueryFault Filter
  | .document fields =>
    if maxClauses < fields.length then .error (.tooManyFields maxClauses)
    else do
      let clauses ← readClauses fields
      return allOf clauses
  | _ => .error (.entryNotDocument operator)

end

/-- The filter that a document writes. -/
def ofDocument (doc : Document) : Except QueryFault Filter :=
  if maxClauses < doc.length then .error (.tooManyFields maxClauses)
  else (readClauses doc).map allOf

end DocStore.Filter
