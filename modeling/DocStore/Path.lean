import DocStore.Text.Numeral
import DocStore.Text.Pieces
import DocStore.Value

/-!
# Field paths

A path is a text whose segments stand between dots; it is followed for at most `maxSegments`
segments. Two readers follow one.

* `Document.gather?` reads one value: where a segment meets an array, the rest of the path is
  applied to every document among the elements and what is found is gathered into an array.
* `Document.reached` lists every value a filter may look at: where a segment meets an array, a
  segment that is an index also selects that element.

Each is a recursion on the value, with one function per list it passes through; `gatherField?_eq`,
`reachedField_eq` and `reachedAt_eq` say what these functions are in terms of plain look-ups.
-/

namespace DocStore

namespace Path

/-- The number of segments a path may have to be followed. -/
def maxSegments : Nat := 32

/-- The number of bytes a path may have for a filter to follow it. -/
def maxBytes : Nat := 1024

/-- The segments of a path. -/
def segments (path : String) : List String := (Text.pieces '.' path.toList).map String.ofList

/-- The index that a segment writes: a number below `2 ^ 64`. -/
def index? (segment : String) : Option Nat := Text.readUnsigned? (Nat.pow 2 64) segment

theorem segments_ne_nil (path : String) : segments path ≠ [] := by
  simp [segments, Text.pieces_ne_nil]

end Path

namespace Value

/-! ## One value at a path -/

mutual

/-- The value that segments lead to below a value, gathered where they meet an array. -/
def gather? : Value → List String → Option Value
  | v, [] => some v
  | document fields, segment :: rest => gatherField? fields segment rest
  | array items, segment :: rest =>
    match gatherItems items segment rest with
    | [] => none
    | found => some (array found)
  | _, _ :: _ => none

/-- The value that segments lead to below the field named by the first. -/
def gatherField? : List (String × Value) → String → List String → Option Value
  | [], _, _ => none
  | (k, v) :: more, segment, rest =>
    if k = segment then gather? v rest else gatherField? more segment rest

/-- What segments lead to below each document of a list, in order. -/
def gatherItems : List Value → String → List String → List Value
  | [], _, _ => []
  | document fields :: more, segment, rest =>
    (gatherField? fields segment rest).toList ++ gatherItems more segment rest
  | _ :: more, segment, rest => gatherItems more segment rest

end

theorem gatherField?_eq (fields : Document) (segment : String) (rest : List String) :
    gatherField? fields segment rest = (fields.get? segment).bind (gather? · rest) := by
  induction fields with
  | nil => rfl
  | cons field more ih =>
    obtain ⟨k, v⟩ := field
    by_cases h : k = segment <;> simp [gatherField?, Document.get?, h, ih]

/-! ## All values at a path -/

mutual

/-- The values that segments lead to below a value. An array offers first the element that the
segment is the index of, then what the same segments lead to below each of its documents. -/
def reached : Value → List String → List Value
  | v, [] => [v]
  | document fields, segment :: rest => reachedField fields segment rest
  | array items, segment :: rest =>
    (match Path.index? segment with
      | some i => reachedAt items i rest
      | none => []) ++ reachedItems items segment rest
  | _, _ :: _ => []

/-- The values below the field named by a segment. -/
def reachedField : List (String × Value) → String → List String → List Value
  | [], _, _ => []
  | (k, v) :: more, segment, rest =>
    if k = segment then reached v rest else reachedField more segment rest

/-- The values below the element at an index. -/
def reachedAt : List Value → Nat → List String → List Value
  | [], _, _ => []
  | v :: _, 0, rest => reached v rest
  | _ :: more, i + 1, rest => reachedAt more i rest

/-- The values below each document of a list. -/
def reachedItems : List Value → String → List String → List Value
  | [], _, _ => []
  | document fields :: more, segment, rest =>
    reachedField fields segment rest ++ reachedItems more segment rest
  | _ :: more, segment, rest => reachedItems more segment rest

end

theorem reachedField_eq (fields : Document) (segment : String) (rest : List String) :
    reachedField fields segment rest =
      match fields.get? segment with
      | some v => reached v rest
      | none => [] := by
  induction fields with
  | nil => rfl
  | cons field more ih =>
    obtain ⟨k, v⟩ := field
    by_cases h : k = segment <;> simp [reachedField, Document.get?, h, ih]

theorem reachedAt_eq (items : List Value) (i : Nat) (rest : List String) :
    reachedAt items i rest =
      match items[i]? with
      | some v => reached v rest
      | none => [] := by
  induction items generalizing i with
  | nil => simp [reachedAt]
  | cons v more ih =>
    cases i with
    | zero => simp [reachedAt]
    | succ i => simp [reachedAt, ih]

end Value

namespace Document

/-- The value at a path, gathered where the path meets an array. The empty path and a path of more
than `Path.maxSegments` segments lead nowhere. -/
def gather? (doc : Document) (path : String) : Option Value :=
  if path.isEmpty || Path.maxSegments < (Path.segments path).length then none
  else
    match Path.segments path with
    | [] => none
    | first :: rest => Value.gatherField? doc first rest

/-- The values at a path that a filter looks at, in order. The empty path, a path of more than
`Path.maxBytes` bytes and one of more than `Path.maxSegments` segments have none. -/
def reached (doc : Document) (path : String) : List Value :=
  if path.isEmpty || Path.maxBytes < path.utf8ByteSize ||
      Path.maxSegments < (Path.segments path).length then []
  else
    match Path.segments path with
    | [] => []
    | first :: rest => Value.reachedField doc first rest

end Document

end DocStore
