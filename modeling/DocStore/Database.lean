import DocStore.Catalog
import DocStore.Cursor
import DocStore.Filter.Parser
import DocStore.Journal
import DocStore.Text.Quoted

/-!
# Databases

A database registers collections under names. A collection that is dropped and created again under
its name is a new one: each is an incarnation of its own, and a handle stands for one incarnation
for ever. The database keeps every incarnation that a handle may stand for, so that documents
entered and found through a handle are those of its incarnation, whatever becomes of the name.

* `Database.create`, `Database.drop`, `Database.resolve` and `Database.get?` are the operations on
  names; `Database.detach` makes an incarnation that no name stands for.
* `Database.insert`, `Database.find`, `Database.count` and `Database.query` are the operations on an
  incarnation.

An operation that can fail answers with the changed database only where it does not.
-/

namespace DocStore

/-! ## Collections -/

/-- Documents in the order in which they were entered, under a name. -/
structure Collection where
  name : String
  documents : List Document

namespace Collection

/-- A collection without documents. -/
def empty (name : String) : Collection := ⟨name, []⟩

/-- The collection with documents entered after the ones it has. -/
def insert (c : Collection) (docs : List Document) : Collection :=
  { c with documents := c.documents ++ docs }

/-- The documents that fulfil a filter, in order. -/
def find (c : Collection) (filter : Filter) : List Document :=
  c.documents.filter filter.fulfilledBy

/-- How many documents fulfil a filter. -/
def count (c : Collection) (filter : Filter) : Nat := (c.find filter).length

/-- A collection in short, for diagnostics. -/
def summary (c : Collection) : String :=
  "Collection \x7b name: " ++ Text.quoted c.name ++ ", count: " ++
    toString c.documents.length ++ " \x7d"

end Collection

/-- What stands for one incarnation of a collection. -/
structure Handle where
  index : Nat
  deriving DecidableEq

/-! ## The database -/

/-- A named set of collections, with every incarnation there has been and a journal. -/
structure Database where
  name : String
  /-- The incarnations in the order in which they came into being. -/
  incarnations : List Collection
  registry : Catalog Handle
  /-- The events noted so far. -/
  journal : List Event

instance : Journal Database where
  note event db := { db with journal := db.journal ++ [event] }

namespace Database

/-- A database without collections. -/
def empty (name : String) : Database := ⟨name, [], [], []⟩

/-- The database with an event noted. -/
def note (db : Database) (event : Event) : Database := Journal.note event db

/-- A collection may have any name that is not empty and holds neither a dollar sign nor the
character of code zero. -/
def validName (name : String) : Bool :=
  !name.isEmpty && !name.toList.contains '$' && !name.toList.contains '\x00'

/-! ### Incarnations -/

/-- The incarnation of a handle. -/
def collection (db : Database) (h : Handle) : Collection :=
  db.incarnations[h.index]?.getD (Collection.empty "")

/-- A new incarnation that no name stands for. -/
def detach (db : Database) (name : String) : Handle × Database :=
  (⟨db.incarnations.length⟩, { db with incarnations := db.incarnations ++ [Collection.empty name] })

/-- A new incarnation registered under its name. -/
def register (db : Database) (name : String) : Handle × Database :=
  let (h, db) := db.detach name
  (h, { db with registry := db.registry.insert name h })

/-- Enter documents into an incarnation. -/
def insert (db : Database) (h : Handle) (docs : List Document) : Database :=
  { db with incarnations := db.incarnations.modify h.index (·.insert docs) }

/-- The documents of an incarnation that fulfil a filter. -/
def find (db : Database) (h : Handle) (filter : Filter) : Cursor × Database :=
  let c := db.collection h
  let docs := c.find filter
  (Cursor.ofList docs, db.note (.found c.name filter.typeName docs.length))

/-- How many documents of an incarnation fulfil a filter. -/
def count (db : Database) (h : Handle) (filter : Filter) : Nat := (db.collection h).count filter

/-- The documents of an incarnation that fulfil a filter document. -/
def query (db : Database) (h : Handle) (filter : Document) : Except Failure (Cursor × Database) :=
  match Filter.ofDocument filter with
  | .ok filter => .ok (db.find h filter)
  | .error fault => .error (.query fault)

/-! ### Names -/

/-- The names of the registered collections, in order. -/
def names (db : Database) : List String := db.registry.names

/-- The registered collection of a name. -/
def get? (db : Database) (name : String) : Option Handle := db.registry.find? name

/-- Create an empty collection under a name that is valid and free. -/
def create (db : Database) (name : String) : Except Failure (Handle × Database) :=
  if !validName name then .error (.invalidName name)
  else if (db.get? name).isSome then .error (.collectionExists name)
  else
    let (h, db) := db.register name
    .ok (h, db.note (.collectionCreated db.name name))

/-- Drop the collection of a name, and say whether there was one. -/
def drop (db : Database) (name : String) : Bool × Database :=
  if (db.get? name).isSome then
    (true, { db with registry := db.registry.erase name }
      |>.note (.collectionDropped db.name name))
  else (false, db)

/-- The collection of a valid name. Where there is none it is registered when `create` says so, and
otherwise answered by a new collection that stays empty. -/
def resolve (db : Database) (name : String) (create : Bool) :
    Except Failure (Handle × Database) :=
  if !validName name then .error (.invalidName name)
  else
    match db.get? name with
    | some h => .ok (h, db)
    | none =>
      if create then .ok (db.register name)
      else .ok ((db.note (.absentResolved db.name name)).detach name)

/-- A database in short, for diagnostics. -/
def summary (db : Database) : String :=
  "Database \x7b name: " ++ Text.quoted db.name ++ ", collections: " ++
    Text.quotedList db.names ++ " \x7d"

end Database

end DocStore
