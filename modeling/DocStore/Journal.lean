/-!
# The journal

What the store does is noted as events in the order in which it happens. An event has a level, a
target that names the part of the store it comes from, and a message.

* `Event` lists what is noted; `Event.level`, `Event.target` and `Event.message` are its record.
* `Level` is also the threshold of a log; `Level.ofText` reads one.
* `Journal σ` says that a state `σ` keeps a journal.
-/

namespace DocStore

/-! ## Levels -/

/-- The importance of an event, or the threshold of a log. -/
inductive Level where
  | off
  | error
  | warn
  | info
  | debug
  | trace
  deriving DecidableEq

namespace Level

/-- The name of a level. -/
def name : Level → String
  | off => "OFF"
  | error => "ERROR"
  | warn => "WARN"
  | info => "INFO"
  | debug => "DEBUG"
  | trace => "TRACE"

/-- The threshold that a text names in letters of either case; a text that names none is `info`. -/
def ofText (s : String) : Level :=
  let word := String.ofList (s.toList.map Char.toLower)
  if word = "off" then off
  else if word = "error" then error
  else if word = "warn" then warn
  else if word = "debug" then debug
  else if word = "trace" then trace
  else info

end Level

/-! ## Events -/

/-- Something that the store does and notes. -/
inductive Event where
  | databaseOpened (name : String)
  | collectionCreated (database collection : String)
  | collectionDropped (database collection : String)
  /-- A collection that does not exist was asked for and answered as an empty one. -/
  | absentResolved (database collection : String)
  | found (collection filter : String) (results : Nat)
  | lookupBuilt (source localField foreignField resultField : String)
  | lookupMissed (source : String)
  | lookupMatched (matched : Nat) (source : String)
  | pipelineBuilt (stages : List String)
  deriving DecidableEq

namespace Event

/-- The importance of an event. -/
def level : Event → Level
  | databaseOpened _ | collectionCreated _ _ | collectionDropped _ _ => .info
  | absentResolved _ _ | lookupBuilt .. | pipelineBuilt _ => .debug
  | found .. | lookupMissed _ | lookupMatched _ _ => .trace

/-- The part of the store that an event comes from. -/
def target : Event → String
  | databaseOpened _ | collectionCreated _ _ | collectionDropped _ _ | absentResolved _ _ =>
    "aggrelite::database"
  | found .. => "aggrelite::query::exec"
  | lookupBuilt .. | lookupMissed _ | lookupMatched _ _ | pipelineBuilt _ => "aggrelite::pipeline"

/-- What an event says. -/
def message : Event → String
  | databaseOpened name => s!"open database: name={name}"
  | collectionCreated database collection =>
    s!"create collection: db={database}, collection={collection}"
  | collectionDropped database collection =>
    s!"drop collection: db={database}, collection={collection}"
  | absentResolved database collection =>
    s!"resolve missing collection as empty: db={database}, collection={collection}"
  | found collection filter results =>
    s!"find: collection={collection}, filter={filter}, results={results}"
  | lookupBuilt source localField foreignField resultField =>
    s!"built $lookup: from={source}, localField={localField}, foreignField={foreignField}, " ++
      s!"as={resultField}"
  | lookupMissed source => s!"$lookup: no match in {source}, dropping document"
  | lookupMatched matched source => s!"$lookup: {matched} match(es) in {source}"
  | pipelineBuilt stages => "parsed pipeline: stages=[" ++ ", ".intercalate stages ++ "]"

end Event

/-- A state that keeps a journal. -/
class Journal (σ : Type) where
  /-- Note an event. -/
  note : Event → σ → σ

end DocStore
