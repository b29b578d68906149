import DocStore.Proofs.Equijoin
import DocStore.Proofs.Semantics

/-!
# What is gathered and what is reached

The two readers of paths beside each other, on paths in which no segment after the first is an
index. There an array offers the same documents to both; one keeps what it finds in arrays, as deep
as the path met them, and the other lists it.

* `Value.Gathers` says that a gathered value tells what is reached: there is none where nothing is
  reached, and otherwise it has the leaves of all reached values, in order. `Value.GathersEach` says
  it of what a list of documents offers.
* `Value.gather?_gathers` goes by recursion on the value, with one lemma for each list it passes
  through.
* `Document.gather?_reached` is the main statement.
-/

namespace DocStore

namespace Value

/-! ## Gathered values -/

/-- A gathered value tells what is reached. -/
structure Gathers (found : Option Value) (values : List Value) : Prop where
  eq_none_iff : found = none ↔ values = []
  leaves_eq : ∀ v, found = some v → v.leaves = values.flatMap leaves

/-- The same of several gathered values, taken together. -/
structure GathersEach (found values : List Value) : Prop where
  eq_nil_iff : found = [] ↔ values = []
  leaves_eq : found.flatMap leaves = values.flatMap leaves

theorem Gathers.none : Gathers Option.none [] := ⟨by simp, by simp⟩

theorem Gathers.some (v : Value) : Gathers (Option.some v) [v] := ⟨by simp, by simp⟩

theorem GathersEach.nil : GathersEach [] [] := ⟨Iff.rfl, rfl⟩

/-- What the first of several documents offers stands before what the others do. -/
theorem GathersEach.cons {found : Option Value} {values more others : List Value}
    (h : Gathers found values) (hs : GathersEach more others) :
    GathersEach (found.toList ++ more) (values ++ others) := by
  obtain ⟨hnone, hleaves⟩ := h
  cases found with
  | none =>
    rw [hnone.1 rfl]
    exact hs
  | some v =>
    have hne : values ≠ [] := fun e => by simpa using hnone.2 e
    refine ⟨by simp [hne], ?_⟩
    rw [Option.toList_some, List.singleton_append, List.flatMap_cons, List.flatMap_append,
      hleaves v rfl, hs.leaves_eq]

/-- An array of what is gathered has the leaves of what is in it. -/
theorem GathersEach.array {found values : List Value} (h : GathersEach found values)
    (hne : found ≠ []) : Gathers (Option.some (.array found)) values := by
  have hvalues : values ≠ [] := fun e => hne (h.eq_nil_iff.2 e)
  refine ⟨by simp [hvalues], ?_⟩
  rintro _ ⟨⟩
  rw [leaves, leavesItems_eq, h.leaves_eq]

/-! ## The two readers -/

mutual

/-- **What is gathered below a value tells what is reached below it**, where no segment is an
index. -/
theorem gather?_gathers : ∀ (v : Value) (segments : List String),
    (∀ segment ∈ segments, Path.index? segment = Option.none) →
      Gathers (gather? v segments) (reached v segments)
  | v, [], _ => by
    rw [gather?, reached]
    exact .some v
  | document fields, segment :: rest, h => by
    rw [gather?, reached]
    exact gatherField?_gathers fields segment rest (List.forall_mem_cons.1 h).2
  | array items, segment :: rest, h => by
    obtain ⟨hsegment, hrest⟩ := List.forall_mem_cons.1 h
    have hitems := gatherItems_gathers items segment rest hrest
    rw [gather?, reached, hsegment, List.nil_append]
    split
    · rename_i hnil
      rw [hitems.eq_nil_iff.1 hnil]
      exact .none
    · exact hitems.array ‹_›
  | null, _ :: _, _ | bool _, _ :: _, _ | int _, _ :: _, _ | long _, _ :: _, _
  | double _, _ :: _, _ | decimal _, _ :: _, _ | string _, _ :: _, _ | objectId _, _ :: _, _
  | date _, _ :: _, _ | timestamp _ _, _ :: _, _ | binary _ _, _ :: _, _ | regex _ _, _ :: _, _
  | javaScript _, _ :: _, _ | javaScriptWithScope _ _, _ :: _, _ | symbol _, _ :: _, _
  | undefined, _ :: _, _ | minKey, _ :: _, _ | maxKey, _ :: _, _ | dbPointer _ _, _ :: _, _ => by
    simp only [gather?, reached]
    exact .none

theorem gatherField?_gathers : ∀ (fields : List (String × Value)) (segment : String)
    (rest : List String), (∀ s ∈ rest, Path.index? s = Option.none) →
      Gathers (gatherField? fields segment rest) (reachedField fields segment rest)
  | [], _, _, _ => by
    rw [gatherField?, reachedField]
    exact .none
  | (k, v) :: more, segment, rest, h => by
    rw [gatherField?, reachedField]
    split_ifs
    · exact gather?_gathers v rest h
    · exact gatherField?_gathers more segment rest h

theorem gatherItems_gathers : ∀ (items : List Value) (segment : String) (rest : List String),
    (∀ s ∈ rest, Path.index? s = Option.none) →
      GathersEach (gatherItems items segment rest) (reachedItems items segment rest)
  | [], _, _, _ => by
    rw [gatherItems, reachedItems]
    exact .nil
  | v :: more, segment, rest, h => by
    have hmore := gatherItems_gathers more segment rest h
    -- An element that is no document offers nothing to either reader.
    cases v with
    | document fields =>
      rw [gatherItems, reachedItems]
      exact .cons (gatherField?_gathers fields segment rest h) hmore
    | _ => exact hmore

end

end Value

namespace Document

/-- A path that is written, of at most 32 segments, is followed from the document. -/
theorem gather?_of_within {doc : Document} {path : String} (hne : path ≠ "")
    (hs : (Path.segments path).length ≤ 32) :
    doc.gather? path = Value.gather? (.document doc) (Path.segments path) := by
  have hle : ¬ (path.isEmpty || Path.maxSegments < (Path.segments path).length) = true := by
    simp only [Bool.or_eq_true, String.isEmpty_iff, decide_eq_true_eq, not_or, Nat.not_lt]
    exact ⟨hne, hs⟩
  rw [gather?, if_neg hle]
  cases h : Path.segments path with
  | nil => exact absurd h (Path.segments_ne_nil path)
  | cons first rest => rw [Value.gather?]

theorem gather?_gathers (doc : Document) {path : String} (bytes : path.utf8ByteSize ≤ 1024)
    (plain : ∀ segment ∈ (Path.segments path).tail, Path.index? segment = none) :
    Value.Gathers (doc.gather? path) (doc.reached path) := by
  have hbytes : ¬ Path.maxBytes < path.utf8ByteSize := Nat.not_lt.2 bytes
  rw [gather?, reached]
  simp only [hbytes, decide_false, Bool.or_false]
  split_ifs
  · exact .none
  · cases hsegments : Path.segments path with
    | nil => exact .none
    | cons first rest =>
      rw [hsegments, List.tail_cons] at plain
      exact Value.gatherField?_gathers doc first rest plain

/-- **The two readers agree where no segment is an index.** On a path of at most 1024 bytes, none of
whose segments after the first is an index, a value is gathered exactly where one is reached, which
is where a test of presence finds one, and it has the leaves of all reached values, in order. -/
theorem gather?_reached (doc : Document) (path : String) (bytes : path.utf8ByteSize ≤ 1024)
    (plain : ∀ segment ∈ (Path.segments path).tail, Path.index? segment = none) :
    (doc.gather? path = none ↔ doc.reached path = []) ∧
      (isOperatorName path = false → ∃ f,
        Filter.ofDocument [(path, .document [("$exists", .bool true)])] = .ok f ∧
          (doc.gather? path = none ↔ f.fulfilledBy doc = false)) ∧
      ∀ v, doc.gather? path = some v → v.leaves = (doc.reached path).flatMap Value.leaves := by
  obtain ⟨hnone, hleaves⟩ := gather?_gathers doc bytes plain
  refine ⟨hnone, fun hp => ⟨.presence path true, ?_, ?_⟩, hleaves⟩
  · rw [Filter.ofDocument_singleton _ hp]
    rfl
  · rw [hnone, Filter.fulfilledBy, ← List.isEmpty_iff]
    cases (doc.reached path).isEmpty <;> decide

/-- Documents in arrays at two levels, with an empty array among what is found. -/
theorem gather?_reached_nested :
    ∃ (doc : Document) (v : Value), doc.gather? "a.b.c" = some v ∧
      v.leaves = (doc.reached "a.b.c").flatMap Value.leaves ∧ v.leaves = [.int 1, .int 2] :=
  ⟨[("a", .array [.document [("b", .array [.document [("c", .int 1)], .null]), ("d", .int 0)],
      .document [("b", .document [("c", .array [.int 2, .array []])])]])],
    .array [.array [.int 1], .array [.int 2, .array []]], rfl,
    (gather?_reached _ _ (by decide) (by decide)).2.2 _ rfl, rfl⟩

end Document

end DocStore
