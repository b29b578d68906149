import DocStore.Calendar
import DocStore.Double.Shortest
import DocStore.Text.Base64
import DocStore.Value

/-!
# Documents as text

The text of a document in messages: fields between braces, elements between brackets, names and
texts between quotation marks with nothing escaped, and a wrapper that names the kind around data
that would otherwise look like a number or a text.

* `Document.text` and `Value.text` are the two printers.
-/

namespace DocStore

namespace Value

mutual

/-- A value as text. -/
def text : Value → String
  | null => "null"
  | bool b => if b then "true" else "false"
  | int n => toString n.toInt
  | long n => toString n.toInt
  | double d => d.text
  | decimal d => d.text
  | string s => "\"" ++ s ++ "\""
  | array items => "[" ++ textItems items ++ "]"
  | document fields => textFields fields
  | objectId id => "ObjectId(\"" ++ id.hex ++ "\")"
  | date millis => "DateTime(\"" ++ Moment.text millis.toInt ++ "\")"
  | timestamp time increment =>
    "Timestamp(" ++ toString time.toNat ++ ", " ++ toString increment.toNat ++ ")"
  | binary subtype bytes =>
    "Binary(0x" ++ Text.hex subtype.toNat ++ ", " ++ Text.base64 bytes ++ ")"
  | regex pattern options => "/" ++ pattern ++ "/" ++ options
  | javaScript code => code
  | javaScriptWithScope code _ => code
  | symbol name => "Symbol(\"" ++ name ++ "\")"
  | undefined => "undefined"
  | minKey => "MinKey"
  | maxKey => "MaxKey"
  | dbPointer target id => "DbPointer(" ++ target ++ ", " ++ id.hex ++ ")"

/-- The elements of an array, with commas between them. -/
def textItems : List Value → String
  | [] => ""
  | [v] => text v
  | v :: rest => text v ++ ", " ++ textItems rest

/-- The fields of a document between braces. -/
def textFields : List (String × Value) → String
  | [] => "\x7b\x7d"
  | (k, v) :: rest => "\x7b \"" ++ k ++ "\": " ++ text v ++ textMore rest

/-- The fields after the first, each after a comma, and the closing brace. -/
def textMore : List (String × Value) → String
  | [] => " \x7d"
  | (k, v) :: rest => ", \"" ++ k ++ "\": " ++ text v ++ textMore rest

end

end Value

/-- A document as text. -/
def Document.text (doc : Document) : String := Value.textFields doc

end DocStore
