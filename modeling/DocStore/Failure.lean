import DocStore.Value.Printer

/-!
# Failures

What can go wrong, as causes. Each failure has a numeric code with a name and, unless its wording
belongs to the reader of a text format, a message.

* `SpecificationFault` is a fault of a stage specification; it belongs to one option (`key`) and one
  of five kinds (`kind`).
* `QueryFault` is a fault of a filter, or one that a collection reports of itself.
* `Failure` is any failure, with `Failure.code`, `Failure.codeName` and `Failure.message?`.
-/

namespace DocStore

/-! ## Stage specifications -/

/-- The kinds of faults of a stage specification. -/
inductive SpecificationFault.Kind where
  | missingOption
  | wrongType
  | invalidPath
  | unknownOption
  | invalidStage
  deriving DecidableEq

/-- A fault of a stage specification. -/
inductive SpecificationFault where
  /-- A required option is absent or null. -/
  | missingOption (stage key : String) (configuration : Document)
  /-- An option that has to be a text is of another type. -/
  | wrongType (stage key type : String)
  /-- A path option has more segments than can be followed. -/
  | longPath (stage key path : String) (limit : Nat)
  /-- An option that the stage does not know. -/
  | unknownOption (stage key : String)
  /-- A specification does not have exactly one field. -/
  | fieldCount
  /-- The body of a stage is not a document. -/
  | bodyNotDocument (stage type : String)
  /-- No stage has the name. -/
  | unknownStage (name : String)
  /-- A fault that a stage defined elsewhere reports in its own words. -/
  | reported (kind : SpecificationFault.Kind) (key message : String)

namespace SpecificationFault

/-- The kind of a fault. -/
def kind : SpecificationFault → Kind
  | missingOption .. => .missingOption
  | wrongType .. => .wrongType
  | longPath .. => .invalidPath
  | unknownOption .. => .unknownOption
  | fieldCount | bodyNotDocument .. | unknownStage .. => .invalidStage
  | reported kind .. => kind

/-- The option or the stage that a fault is about; empty where it is about none. -/
def key : SpecificationFault → String
  | missingOption _ key _ | wrongType _ key _ | longPath _ key _ _ | unknownOption _ key => key
  | fieldCount => ""
  | bodyNotDocument stage _ => stage
  | unknownStage name => name
  | reported _ key _ => key

/-- The message of a fault. -/
def message : SpecificationFault → String
  | missingOption stage key configuration =>
    s!"missing '{key}' option to {stage} stage specification: " ++ configuration.text
  | wrongType stage key type => s!"'{key}' option to {stage} must be a string, but was type {type}"
  | longPath stage key path limit =>
    s!"'{key}' option to {stage} must have at most {limit} path components: {path}"
  | unknownOption stage key => s!"unknown argument to {stage}: {key}"
  | fieldCount => "A pipeline stage specification object must contain exactly one field."
  | bodyNotDocument stage type =>
    s!"the {stage} stage specification must be an object, but found {type}"
  | unknownStage name => s!"Unrecognized pipeline stage name: '{name}'"
  | reported _ _ message => message

end SpecificationFault

/-! ## Filters and queries -/

/-- A fault of a filter, or one that the backing collection reports. -/
inductive QueryFault where
  /-- A filter document has too many fields. -/
  | tooManyFields (limit : Nat)
  /-- A field named like an operator that is not one where filters stand. -/
  | unknownTopLevel (name : String)
  /-- The operand of a logical operator is not an array. -/
  | notArray (operator : String)
  /-- The operand of a logical operator is the empty array. -/
  | emptyArray (operator : String)
  /-- An entry under a logical operator is not a document. -/
  | entryNotDocument (operator : String)
  /-- The operand of a negation is not a document of operators. -/
  | negatedNotOperators
  /-- A field of an operator document that is no operator. -/
  | unknownOperator (name : String)
  /-- The operand of a membership test is not an array. -/
  | setNotArray (operator : String)
  /-- A filter text whose value is not an object. -/
  | textNotObject
  /-- A fault that a collection reports in its own words. -/
  | reported (message : String)

/-- The message of a fault. -/
def QueryFault.message : QueryFault → String
  | tooManyFields limit => s!"filter has more than {limit} fields"
  | unknownTopLevel name => s!"unknown top level operator: {name}"
  | notArray operator => s!"{operator} must be an array"
  | emptyArray operator => s!"{operator} must be a nonempty array"
  | entryNotDocument operator => s!"{operator} entries must be objects"
  | negatedNotOperators => "$not needs a document of operators"
  | unknownOperator name => s!"unknown operator: {name}"
  | setNotArray operator => s!"{operator} needs an array"
  | textNotObject => "filter must be a JSON object"
  | reported message => message

/-! ## Files -/

/-- A failed operation on files. -/
inductive FileFault where
  | notFound
  | alreadyExists
  | notDirectory
  | isDirectory
  | nameTooLong
  /-- A path holds the character of code zero. -/
  | zeroInName
  /-- A fault described in words of its own. -/
  | reported (message : String)

/-- The message of a fault, with the number of the error where the system gives one. -/
def FileFault.message : FileFault → String
  | notFound => "No such file or directory (os error 2)"
  | alreadyExists => "File exists (os error 17)"
  | notDirectory => "Not a directory (os error 20)"
  | isDirectory => "Is a directory (os error 21)"
  | nameTooLong => "File name too long (os error 36)"
  | zeroInName => "file name contained an unexpected NUL byte"
  | reported message => message

/-! ## All failures -/

/-- A failure of an operation of the database. -/
inductive Failure where
  | specification (fault : SpecificationFault)
  | query (fault : QueryFault)
  | noSuchCollection (name : String)
  | collectionExists (name : String)
  | invalidName (name : String)
  | file (fault : FileFault)
  /-- A text is not in the JSON format. -/
  | json
  /-- A text does not hold valid settings. -/
  | settings

namespace Failure

/-- The numeric code reported to clients. -/
def code : Failure → Nat
  | specification _ => 9
  | query _ => 2
  | noSuchCollection _ => 26
  | collectionExists _ => 48
  | invalidName _ => 73
  | file _ | json | settings => 1

/-- The name that belongs to the code. -/
def codeName : Failure → String
  | specification _ => "FailedToParse"
  | query _ => "BadValue"
  | noSuchCollection _ => "NamespaceNotFound"
  | collectionExists _ => "NamespaceExists"
  | invalidName _ => "InvalidNamespace"
  | file _ | json | settings => "InternalError"

/-- The message of a failure. That of a malformed text is left to the reader of its format. -/
def message? : Failure → Option String
  | specification fault => some fault.message
  | query fault => some ("Query error: " ++ fault.message)
  | noSuchCollection name => some s!"Collection not found: {name}"
  | collectionExists name => some s!"Collection already exists: {name}"
  | invalidName name => some s!"Invalid collection name: '{name}'"
  | file fault => some ("I/O error: " ++ fault.message)
  | json | settings => none

end Failure

end DocStore
