import DocStore.Double

/-!
# TOML values

A TOML value, with what has to be known of a table while a text is read: whether its own header
stood in the text, or only longer headers or dotted keys that pass through it. A table under a
header of its own may not be opened again, and one that dotted keys made may not be opened by a
header.

* `Toml.Table.within` works on the table that the keys of a header lead to.
* `Toml.Table.openTable` and `Toml.Table.openElement` are what the two forms of headers do there.
* `Toml.Table.assign` sets the value of a key, which may be dotted.
-/

namespace DocStore

/-- Where a table comes from. -/
inductive Toml.Origin where
  /-- A header of its own. -/
  | header
  /-- A header that passes through it. -/
  | passed
  /-- A dotted key that passes through it. -/
  | dotted
  deriving DecidableEq

/-- A TOML value. -/
inductive Toml where
  | string (s : String)
  | integer (n : Int)
  | float (d : Double)
  | bool (b : Bool)
  /-- A date, a time or both, as written. -/
  | moment (written : String)
  | array (items : List Toml)
  | inlineTable (fields : List (String × Toml))
  | table (origin : Toml.Origin) (fields : List (String × Toml))
  /-- Tables that the same header opened one after the other, the last one first. -/
  | tables (elements : List (List (String × Toml)))

namespace Toml

/-- The text of a string; other values have none. -/
def string? : Toml → Option String
  | string s => some s
  | _ => none

/-- The truth value of a boolean; other values have none. -/
def bool? : Toml → Option Bool
  | bool b => some b
  | _ => none

/-! ## Tables -/

/-- The fields of a table, in text order. -/
abbrev Table := List (String × Toml)

namespace Table

/-- The value of a key. -/
def get? (t : Table) (key : String) : Option Toml := (t.find? (·.1 == key)).map (·.2)

/-- The table with the value of a key set, in its place when the table has the key. -/
def set (t : Table) (key : String) (value : Toml) : Table :=
  if t.any (·.1 == key) then t.map fun (k, v) => if k = key then (k, value) else (k, v)
  else t ++ [(key, value)]

/-- Work on the table that keys lead to; tables that are not there are made. Keys lead through the
last of the tables of one header, and through no other value. -/
def within : List String → (Table → Option Table) → Table → Option Table
  | [], f, t => f t
  | key :: rest, f, t =>
    match t.get? key with
    | none => (within rest f []).map fun inner => t.set key (.table .passed inner)
    | some (.table origin inner) =>
      (within rest f inner).map fun inner => t.set key (.table origin inner)
    | some (.tables (last :: others)) =>
      (within rest f last).map fun inner => t.set key (.tables (inner :: others))
    | some _ => none

/-- Open a table by its header: a new one, or one that headers only passed through so far. -/
def openTable (key : String) (t : Table) : Option Table :=
  match t.get? key with
  | none => some (t.set key (.table .header []))
  | some (.table .passed inner) => some (t.set key (.table .header inner))
  | some _ => none

/-- Open a further table under a header that may stand several times. -/
def openElement (key : String) (t : Table) : Option Table :=
  match t.get? key with
  | none => some (t.set key (.tables [[]]))
  | some (.tables elements) => some (t.set key (.tables ([] :: elements)))
  | some _ => none

/-- Set the value of a new key in the table that the keys before it lead to. A dotted key ends in a
table that dotted keys made. -/
def assign : List String → String → Toml → (dottedHere : Bool) → Table → Option Table
  | [], key, value, allowed, t =>
    if allowed && (t.get? key).isNone then some (t.set key value) else none
  | first :: rest, key, value, _, t =>
    match t.get? first with
    | none => (assign rest key value true []).map fun inner => t.set first (.table .dotted inner)
    | some (.table .header _) => none
    | some (.table origin inner) =>
      (assign rest key value (origin == .dotted) inner).map fun inner =>
        t.set first (.table origin inner)
    | some (.tables (last :: others)) =>
      (assign rest key value false last).map fun inner => t.set first (.tables (inner :: others))
    | some _ => none

end Table

end Toml

end DocStore
