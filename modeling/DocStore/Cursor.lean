import DocStore.Value

/-!
# Cursors

A cursor goes once through the documents of a query's answer. It keeps the answer as it was when the
query was made and the number of documents it has passed. A document that it passes is moved out of
the answer, and an empty one stays behind.

* `Cursor.next` is the next document with the cursor behind it.
* `Cursor.rest` are the documents still to come. The other operations are told by it:
  `next_fst`, `rest_next`, `remaining_eq`.
-/

namespace DocStore

/-- A position in the documents of an answer. -/
structure Cursor where
  documents : List Document
  position : Nat
  position_le : position ≤ documents.length

namespace Cursor

/-- The cursor before the first document of an answer. -/
def ofList (documents : List Document) : Cursor := ⟨documents, 0, Nat.zero_le _⟩

/-- The cursor of an answer without documents. -/
def empty : Cursor := ofList []

/-- The documents still to come. -/
def rest (c : Cursor) : List Document := c.documents.drop c.position

/-- How many documents are still to come. -/
def remaining (c : Cursor) : Nat := c.documents.length - c.position

/-- The next document, if there is one, and the cursor after it. -/
def next (c : Cursor) : Option Document × Cursor :=
  if h : c.position < c.documents.length then
    (some c.documents[c.position],
      ⟨c.documents.set c.position [], c.position + 1, by rwa [List.length_set]⟩)
  else (none, c)

/-- The bounds on the number of documents still to come, which are both exact. -/
def sizeBounds (c : Cursor) : Nat × Nat := (c.remaining, c.remaining)

@[simp] theorem rest_ofList (documents : List Document) : (ofList documents).rest = documents := rfl

@[simp] theorem remaining_eq (c : Cursor) : c.remaining = c.rest.length := by
  simp [remaining, rest]

@[simp] theorem next_fst (c : Cursor) : c.next.1 = c.rest.head? := by
  unfold next
  split
  · rename_i h
    simp [rest, h]
  · rename_i h
    simp [rest, Nat.not_lt.1 h]

/-- What has been moved out is not among the documents still to come. -/
@[simp] theorem rest_next (c : Cursor) : c.next.2.rest = c.rest.tail := by
  unfold next
  split
  · simp [rest, List.drop_set_of_lt]
  · rename_i h
    have hend : c.rest = [] := List.drop_eq_nil_of_le (Nat.not_lt.1 h)
    rw [hend]
    rfl

end Cursor

end DocStore
