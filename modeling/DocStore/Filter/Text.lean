import DocStore.Filter.Parser
import DocStore.Json.Reader

/-!
# Filters from JSON text

A filter may be written as a JSON object, which is read as a value of the store (`Json.toValue`) and
then as a filter document.
-/

namespace DocStore.Filter

/-- The filter that a JSON value writes: it has to be an object. -/
def ofJson (json : Json) : Except QueryFault Filter :=
  match json.toValue with
  | .document doc => ofDocument doc
  | _ => .error .textNotObject

/-- The filter that a JSON text writes. -/
def ofText (s : String) : Except Failure Filter :=
  match Json.ofText? s with
  | some json => (ofJson json).mapError Failure.query
  | none => .error .json

end DocStore.Filter
