import DocStore.Proofs.Gathering
import DocStore.Stage.Options

/-!
# Paths that are accepted and followed

A stage takes a path as an option, two readers follow it, and each of the three has limits of its
own. They are compared on the document that has one value at the path, under a field for each
segment.

* `Document.nested` is that document; on its segments each reader finds the value
  (`Value.gather?_under`, `Value.reached_under`).
* `Document.gather?_nested` and `Document.reached_nested` say within which limits it is found.
* `Options.path_followed` is the main statement; `Options.path_unfollowed` is the refutation of the
  statement that every accepted path is followed by both readers.
-/

namespace DocStore

/-! ## Values under fields -/

namespace Value

/-- A value under fields, the first outermost. -/
def under : List String → Value → Value
  | [], v => v
  | segment :: rest, v => document [(segment, under rest v)]

@[simp] theorem gather?_under (segments : List String) (v : Value) :
    gather? (under segments v) segments = some v := by
  induction segments with
  | nil => rw [under, gather?]
  | cons segment rest ih => rw [under, gather?, gatherField?, if_pos rfl, ih]

@[simp] theorem reached_under (segments : List String) (v : Value) :
    reached (under segments v) segments = [v] := by
  induction segments with
  | nil => rw [under, reached]
  | cons segment rest ih => rw [under, reached, reachedField, if_pos rfl, ih]

end Value

namespace Document

/-- The document that has a value under the segments of a path. -/
def nested (path : String) (v : Value) : Document :=
  match Path.segments path with
  | [] => []
  | segment :: rest => [(segment, .under rest v)]

theorem document_nested (path : String) (v : Value) :
    .document (nested path v) = Value.under (Path.segments path) v := by
  rw [nested]
  split
  · exact absurd ‹_› (Path.segments_ne_nil path)
  · rename_i hsegments
    rw [hsegments, Value.under]

variable {path : String}

/-- The reader of one value follows a path of at most 32 segments, unless it is empty. -/
theorem gather?_nested (hs : (Path.segments path).length ≤ 32) (v : Value) :
    (nested path v).gather? path = some v ↔ path ≠ "" := by
  by_cases hne : path = ""
  · subst hne
    exact iff_of_false nofun (not_not_intro rfl)
  · rw [gather?_of_within hne hs, document_nested]
    simpa using hne

/-- The reader of all values follows such a path if it has at most 1024 bytes. -/
theorem reached_nested (hs : (Path.segments path).length ≤ 32) (v : Value) :
    (nested path v).reached path =
      if path ≠ "" ∧ path.utf8ByteSize ≤ 1024 then [v] else [] := by
  split_ifs with h
  · rw [reached_of_within h.1 h.2 hs, document_nested, Value.reached_under]
  · refine List.eq_nil_iff_forall_not_mem.2 fun w hw => h ?_
    obtain ⟨hne, hbytes, -⟩ := within_of_mem_reached hw
    exact ⟨hne, hbytes⟩

theorem fulfilledBy_presence_nested (hs : (Path.segments path).length ≤ 32) (v : Value) :
    (Filter.presence path true).fulfilledBy (nested path v) = true ↔
      path ≠ "" ∧ path.utf8ByteSize ≤ 1024 := by
  rw [Filter.fulfilledBy, reached_nested hs]
  split_ifs with h
  · exact iff_of_true rfl h
  · exact iff_of_false nofun h

end Document

/-! ## Options that are paths -/

namespace Options

variable {configuration : Document} {key path : String}

/-- An option that is a text is accepted as a path if it has at most 32 segments. -/
theorem path_of_text (stage : String) (given : configuration.get? key = some (.string path)) :
    Options.path configuration stage key =
      if 32 < (Path.segments path).length then .error (.longPath stage key path 32)
      else .ok path := by
  have htext : text configuration stage key = .ok path := by rw [text, given]
  rw [Options.path, htext]
  rfl

/-- **Which paths are accepted and followed.** An option is given as a text. Of more than 32
segments, it is refused. Otherwise it is accepted, and in the document that has a value under its
segments the reader of one value finds the value unless the path is empty; a test of presence finds
it just if the path, moreover, has at most 1024 bytes. -/
theorem path_followed (stage : String) (given : configuration.get? key = some (.string path)) :
    (32 < (Path.segments path).length →
        Options.path configuration stage key = .error (.longPath stage key path 32)) ∧
      ((Path.segments path).length ≤ 32 →
        Options.path configuration stage key = .ok path ∧ ∀ v,
          ((Document.nested path v).gather? path = some v ↔ path ≠ "") ∧
            ((Filter.presence path true).fulfilledBy (Document.nested path v) = true ↔
              path ≠ "" ∧ path.utf8ByteSize ≤ 1024)) := by
  rw [path_of_text stage given]
  refine ⟨fun hlong => if_pos hlong, fun hs => ⟨if_neg (Nat.not_lt.2 hs), fun v => ?_⟩⟩
  exact ⟨Document.gather?_nested hs v, Document.fulfilledBy_presence_nested hs v⟩

theorem path_followed_customer :
    Options.path [("localField", .string "customer.id")] "$lookup" "localField" =
        .ok "customer.id" ∧
      Document.nested "customer.id" (.int 5) =
        [("customer", .document [("id", .int 5)])] ∧
      (Document.nested "customer.id" (.int 5)).gather? "customer.id" = some (.int 5) ∧
      (Filter.presence "customer.id" true).fulfilledBy (Document.nested "customer.id" (.int 5)) =
        true := by
  have given : Document.get? [("localField", .string "customer.id")] "localField" =
      some (.string "customer.id") := rfl
  obtain ⟨haccepted, hfollowed⟩ := (path_followed "$lookup" given).2 (by decide)
  exact ⟨haccepted, rfl, (hfollowed _).1.2 (by decide), (hfollowed _).2.2 (by decide)⟩

/-- Not every accepted path is followed by both readers: one segment of 1025 bytes is accepted, and
no document is found to have it. -/
theorem path_unfollowed :
    ¬ ∀ (configuration : Document) (stage key path : String),
        Options.path configuration stage key = .ok path →
          ∀ v : Value, (∀ items, v ≠ .array items) → (∀ fields, v ≠ .document fields) →
            (Document.nested path v).gather? path = some v ∧
              (Filter.presence path true).fulfilledBy (Document.nested path v) = true := by
  intro hfollowed
  obtain ⟨path, hsegments, hbytes⟩ : ∃ path : String,
      (Path.segments path).length ≤ 32 ∧ ¬ path.utf8ByteSize ≤ 1024 := by
    refine ⟨.ofList (.replicate 1025 'a'), ?_, by decide +kernel⟩
    have hdot : '.' ∉ List.replicate 1025 'a' := fun h => by cases List.eq_of_mem_replicate h
    rw [Path.segments, String.toList_ofList, Text.pieces_of_not_mem hdot, List.map_singleton,
      List.length_singleton]
    decide
  have given : Document.get? [("foreignField", .string path)] "foreignField" =
      some (.string path) := rfl
  have haccepted := (path_of_text "$lookup" given).trans (if_neg (Nat.not_lt.2 hsegments))
  have hfound := (hfollowed _ _ _ _ haccepted (.int 1) (by simp) (by simp)).2
  exact hbytes ((Document.fulfilledBy_presence_nested hsegments _).1 hfound).2

end Options

end DocStore
