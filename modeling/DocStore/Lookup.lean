import DocStore.Journal
import DocStore.Stage
import DocStore.Stage.Options
import DocStore.Text.Quoted

/-!
# Lookups

A lookup joins a document with the documents of another collection whose foreign field equals the
document's local field. The matches are put under the result field; a document without a match is
dropped.

* `Lookup.build` makes a lookup from its configuration: the source collection is resolved, without
  being created, as soon as its name is read.
* `Lookup.fetch` finds the matches of a value: an array is looked up element by element, any other
  value with one equality query (`Lookup.equalityFilter`).
* `Lookup.resolve` finds the matches of a document, `Lookup.join` puts them into it.
-/

namespace DocStore

variable {σ : Type}

/-- A join with a collection. -/
structure Lookup (σ : Type) where
  source : String
  localField : String
  foreignField : String
  resultField : String
  target : Target σ

namespace Lookup

/-- The name of the stage. -/
def stageName : String := "$lookup"

/-- The options of the stage. -/
def options : List String := ["from", "localField", "foreignField", "as"]

/-! ## Construction -/

/-- A reader of options as an action. -/
def reading {α : Type} (result : Except SpecificationFault α) : Action σ α :=
  ExceptT.mk (pure (result.mapError Failure.specification))

/-- A lookup from its configuration. The first option at fault, in the order `from`, `localField`,
`foreignField`, `as`, and then the first unknown option, is reported. -/
def build [Journal σ] (resolver : Resolver σ) (configuration : Document) :
    Action σ (Lookup σ) := do
  let source ← reading (Options.text configuration stageName "from")
  let target ← resolver source false
  let localField ← reading (Options.path configuration stageName "localField")
  let foreignField ← reading (Options.path configuration stageName "foreignField")
  let resultField ← reading (Options.text configuration stageName "as")
  reading (Options.onlyKnown configuration stageName options)
  modify (Journal.note (.lookupBuilt source localField foreignField resultField))
  return { source, localField, foreignField, resultField, target }

/-! ## Matches -/

/-- The filter document that asks for equality with a value. A document that looks like one of
operators is put under the equality operator, so that it is read as data. -/
def equalityFilter (l : Lookup σ) (value : Value) : Document :=
  match value with
  | .document fields =>
    if Document.startsWithOperator fields then [(l.foreignField, .document [("$eq", value)])]
    else [(l.foreignField, value)]
  | _ => [(l.foreignField, value)]

/-- The documents whose foreign field equals a value that is not an array. -/
def matching (l : Lookup σ) (value : Value) : Action σ (List Document) := do
  let cursor ← l.target.query (l.equalityFilter value)
  return cursor.rest

mutual

/-- The matches of a value: those of its elements one after the other where it is an array. -/
def fetch (l : Lookup σ) : Value → Action σ (List Document)
  | .array items => l.fetchEach items
  | value => l.matching value

/-- The matches of several values, one after the other. -/
def fetchEach (l : Lookup σ) : List Value → Action σ (List Document)
  | [] => return []
  | value :: rest => do
    let found ← l.fetch value
    let more ← l.fetchEach rest
    return found ++ more

end

/-- The matches of a document; an absent local field is looked up as null. -/
def resolve (l : Lookup σ) (doc : Document) : Action σ (List Document) :=
  l.fetch ((doc.gather? l.localField).getD .null)

/-- The document with its matches under the result field, or nothing where there are none. -/
def join [Journal σ] (l : Lookup σ) (doc : Document) : Action σ (Option Document) := do
  let found ← l.resolve doc
  if found.isEmpty then
    modify (Journal.note (.lookupMissed l.source))
    return none
  else
    modify (Journal.note (.lookupMatched found.length l.source))
    return some (doc.insert l.resultField (.array (found.map .document)))

/-- The lookup as a stage. -/
def stage [Journal σ] (l : Lookup σ) : Stage σ := ⟨stageName, l.join⟩

/-- A lookup in short, for diagnostics. -/
def summary (l : Lookup σ) : String :=
  "LookupStage \x7b from: " ++ Text.quoted l.source ++ ", local_field: " ++
    Text.quoted l.localField ++ ", foreign_field: " ++ Text.quoted l.foreignField ++
    ", as_field: " ++ Text.quoted l.resultField ++ ", .. \x7d"

end Lookup

end DocStore
