import Mathlib.Tactic.Common
import DocStore.Filter
import DocStore.Path.Reaches

/-!
# What a filter means

A filter said as a property of documents, without lists of values. A path leads to values
(`Document.Leads`), one segment at a time and only within its limits; a test asks for one of these
values, or for none (`Document.EqualTo`, `Document.InRange`); a filter combines tests
(`Filter.Holds`).

* `Path.index?_eq_some_iff` says which segments are indices: the numerals below `2 ^ 64` with an
  optional plus sign (`Path.Writes`).
* `Document.mem_reached_iff` says that the evaluator looks at exactly the values that a path leads
  to. One lemma for each test follows: `equalsAt_iff`, `equalsOneAt_iff`, `inRangeAt_iff`.
* `Filter.fulfilledBy_iff_holds` is the main statement: the evaluator answers with the meaning.
-/

namespace DocStore

/-! ## Indices -/

/-- A segment writes an index: decimal digits, at least one, after an optional plus sign, for a
number below `2 ^ 64`. -/
def Path.Writes (segment : String) (i : Nat) : Prop :=
  ∃ digits : List Char, (segment.toList = digits ∨ segment.toList = '+' :: digits) ∧
    digits ≠ [] ∧ (∀ c ∈ digits, '0' ≤ c ∧ c ≤ '9') ∧
    digits.foldl (fun n c => 10 * n + (c.toNat - 48)) 0 = i ∧ i < 18446744073709551616

namespace Text

theorem digit?_eq_some_iff {c : Char} {n : Nat} :
    digit? c = some n ↔ ('0' ≤ c ∧ c ≤ '9') ∧ c.toNat - 48 = n := by
  unfold digit?
  split_ifs with hc
  · rw [Option.some.injEq]
    exact ⟨fun h => ⟨hc, h⟩, fun h => h.2⟩
  · simp [hc]

theorem mapM_digit?_eq_some_iff {cs : List Char} {ns : List Nat} :
    cs.mapM digit? = some ns ↔
      (∀ c ∈ cs, '0' ≤ c ∧ c ≤ '9') ∧ cs.map (fun c => c.toNat - 48) = ns := by
  induction cs generalizing ns with
  | nil => simp [eq_comm]
  | cons c rest ih =>
    rw [List.mapM_cons]
    simp only [Option.pure_def, Option.bind_eq_bind, Option.bind_eq_some_iff, digit?_eq_some_iff,
      ih, Option.some.injEq, List.forall_mem_cons, List.map_cons]
    constructor
    · rintro ⟨n, ⟨hc, rfl⟩, _, ⟨hr, rfl⟩, rfl⟩
      exact ⟨⟨hc, hr⟩, rfl⟩
    · rintro ⟨⟨hc, hr⟩, rfl⟩
      exact ⟨_, ⟨hc, rfl⟩, _, ⟨hr, rfl⟩, rfl⟩

theorem ofDigits_map (cs : List Char) (base : Nat) (f : Char → Nat) :
    ofDigits base (cs.map f) = cs.foldl (fun n c => base * n + f c) 0 := by
  rw [ofDigits, List.foldl_map]
  congr 1
  funext n c
  rw [Nat.mul_comm]

theorem readNat?_eq_some_iff {cs : List Char} {i : Nat} :
    readNat? cs = some i ↔ cs ≠ [] ∧ (∀ c ∈ cs, '0' ≤ c ∧ c ≤ '9') ∧
      cs.foldl (fun n c => 10 * n + (c.toNat - 48)) 0 = i := by
  unfold readNat?
  split_ifs with h
  · simp [List.isEmpty_iff.1 h]
  · have hne : cs ≠ [] := fun e => h (by rw [e]; rfl)
    rw [Option.map_eq_some_iff]
    constructor
    · rintro ⟨ns, hns, rfl⟩
      obtain ⟨hd, rfl⟩ := mapM_digit?_eq_some_iff.1 hns
      exact ⟨hne, hd, (ofDigits_map ..).symm⟩
    · rintro ⟨-, hd, rfl⟩
      exact ⟨_, mapM_digit?_eq_some_iff.2 ⟨hd, rfl⟩, ofDigits_map ..⟩

theorem dropPlus_eq_iff {cs digits : List Char} (hd : ∀ c ∈ digits, '0' ≤ c ∧ c ≤ '9') :
    dropPlus cs = digits ↔ cs = digits ∨ cs = '+' :: digits := by
  unfold dropPlus
  split
  · rename_i rest
    constructor
    · rintro rfl
      exact .inr rfl
    · rintro (rfl | h)
      · have := (hd '+' (by simp)).1
        exact absurd this (by decide)
      · exact (List.cons.inj h).2
  · rename_i h
    constructor
    · exact .inl
    · rintro (rfl | rfl)
      · rfl
      · exact absurd rfl (h digits)

end Text

/-- **The segments that are indices.** -/
theorem Path.index?_eq_some_iff {segment : String} {i : Nat} :
    Path.index? segment = some i ↔ Path.Writes segment i := by
  rw [Path.index?, Text.readUnsigned?, Option.filter_eq_some_iff, Text.readNat?_eq_some_iff]
  constructor
  · rintro ⟨⟨hne, hd, hv⟩, hlt⟩
    exact ⟨_, (Text.dropPlus_eq_iff hd).1 rfl, hne, hd, hv, by simpa using hlt⟩
  · rintro ⟨digits, hs, hne, hd, hv, hlt⟩
    rw [(Text.dropPlus_eq_iff hd).2 hs]
    exact ⟨⟨hne, hd, hv⟩, by simpa using hlt⟩

/-! ## Values at a path -/

/-- A path leads from a document to a value. It has to be written, of at most 1024 bytes and of at
most 32 segments. -/
structure Document.Leads (doc : Document) (path : String) (v : Value) : Prop where
  nonempty : path ≠ ""
  bytes : path.utf8ByteSize ≤ 1024
  segments : (Path.segments path).length ≤ 32
  reaches : Value.Reaches (.document doc) (Path.segments path) v

/-- A value that a range is asked of: one that a path leads to and that is no array, or an element
of an array that the path leads to. -/
def Document.Offers (doc : Document) (path : String) (v : Value) : Prop :=
  (doc.Leads path v ∧ ∀ items, v ≠ .array items) ∨
    ∃ items, doc.Leads path (.array items) ∧ v ∈ items

/-- The value at a path equals a value: it is absent and the value is null, or the path leads to a
value that is equal as a whole or is an array with an equal element. -/
def Document.EqualTo (doc : Document) (path : String) (value : Value) : Prop :=
  ((∀ v, ¬ doc.Leads path v) ∧ value = .null) ∨
    ∃ v, doc.Leads path v ∧
      (v.equal value = true ∨ ∃ items, v = .array items ∧ ∃ w ∈ items, w.equal value = true)

/-- The orders that a range comparison allows. -/
inductive Comparison.Allows : Comparison → Ordering → Prop
  | greater : Allows gt .gt
  | atLeastGreater : Allows gte .gt
  | atLeastEqual : Allows gte .eq
  | less : Allows lt .lt
  | atMostLess : Allows lte .lt
  | atMostEqual : Allows lte .eq

/-- The path offers a value that is comparable with a value, in an order that is allowed. -/
def Document.InRange (doc : Document) (path : String) (op : Comparison) (value : Value) : Prop :=
  ∃ v, doc.Offers path v ∧ ∃ order, v.compare? value = some order ∧ op.Allows order

/-! ## Filters -/

namespace Filter

mutual

/-- What a filter says of a document. -/
def Holds (doc : Document) : Filter → Prop
  | always => True
  | and filters => HoldsEvery doc filters
  | or filters => HoldsSome doc filters
  | nor filters => ¬ HoldsSome doc filters
  | not filter => ¬ Holds doc filter
  | presence path expected => (∃ v, doc.Leads path v) ↔ expected = true
  | oneOf path values => ∃ value ∈ values.take 1000, doc.EqualTo path value
  | noneOf path values => ¬ ∃ value ∈ values.take 1000, doc.EqualTo path value
  | compare path .eq value => doc.EqualTo path value
  | compare path .ne value => ¬ doc.EqualTo path value
  | compare path op value => doc.InRange path op value

/-- What the conjunction of filters says of a document. -/
def HoldsEvery (doc : Document) : List Filter → Prop
  | [] => True
  | f :: rest => Holds doc f ∧ HoldsEvery doc rest

/-- What the disjunction of filters says of a document. -/
def HoldsSome (doc : Document) : List Filter → Prop
  | [] => False
  | f :: rest => Holds doc f ∨ HoldsSome doc rest

end

end Filter

/-! ## The tests of the evaluator -/

theorem Comparison.admits_iff {op : Comparison} {order : Ordering} :
    op.admits order = true ↔ op.Allows order := by
  constructor
  · intro h
    cases op <;> cases order <;> first | (exact absurd h (by decide)) | constructor
  · rintro (_ | _) <;> rfl

namespace Document

theorem reached_of_within {doc : Document} {path : String} (hne : path ≠ "")
    (hb : path.utf8ByteSize ≤ 1024) (hs : (Path.segments path).length ≤ 32) :
    doc.reached path = Value.reached (.document doc) (Path.segments path) := by
  have hle : ¬ (path.isEmpty || Path.maxBytes < path.utf8ByteSize ||
      Path.maxSegments < (Path.segments path).length) = true := by
    simp only [Bool.or_eq_true, String.isEmpty_iff, decide_eq_true_eq, not_or, Nat.not_lt]
    exact ⟨⟨hne, hb⟩, hs⟩
  rw [Document.reached, if_neg hle]
  cases h : Path.segments path with
  | nil => exact absurd h (Path.segments_ne_nil path)
  | cons first rest => rw [Value.reached]

theorem within_of_mem_reached {doc : Document} {path : String} {v : Value}
    (h : v ∈ doc.reached path) :
    path ≠ "" ∧ path.utf8ByteSize ≤ 1024 ∧ (Path.segments path).length ≤ 32 := by
  unfold Document.reached at h
  split_ifs at h with hlong
  · simp at h
  · simp only [Bool.or_eq_true, String.isEmpty_iff, decide_eq_true_eq, not_or, Nat.not_lt] at hlong
    exact ⟨hlong.1.1, hlong.1.2, hlong.2⟩

/-- The evaluator looks at exactly the values that a path leads to. -/
theorem mem_reached_iff {doc : Document} {path : String} {v : Value} :
    v ∈ doc.reached path ↔ doc.Leads path v := by
  constructor
  · intro h
    obtain ⟨hne, hb, hs⟩ := within_of_mem_reached h
    rw [reached_of_within hne hb hs, Value.mem_reached_iff] at h
    exact ⟨hne, hb, hs, h⟩
  · rintro ⟨hne, hb, hs, hr⟩
    rw [reached_of_within hne hb hs]
    exact Value.mem_reached_iff.2 hr

theorem reached_eq_nil_iff {doc : Document} {path : String} :
    doc.reached path = [] ↔ ∀ v, ¬ doc.Leads path v := by
  simp only [List.eq_nil_iff_forall_not_mem, mem_reached_iff]

theorem isEmpty_reached_eq_false_iff {doc : Document} {path : String} :
    (doc.reached path).isEmpty = false ↔ ∃ v, doc.Leads path v := by
  rw [← Bool.not_eq_true, List.isEmpty_iff, reached_eq_nil_iff]
  push Not
  rfl

theorem mem_candidates_iff {doc : Document} {path : String} {v : Value} :
    v ∈ (doc.reached path).flatMap Value.candidates ↔ doc.Offers path v := by
  simp only [List.mem_flatMap, mem_reached_iff, Offers]
  constructor
  · rintro ⟨u, hu, hv⟩
    cases u with
    | array items => exact .inr ⟨items, hu, hv⟩
    | _ =>
      obtain rfl := List.mem_singleton.1 hv
      exact .inl ⟨hu, fun items h => by cases h⟩
  · rintro (⟨hv, hna⟩ | ⟨items, ha, hv⟩)
    · refine ⟨v, hv, ?_⟩
      cases v with
      | array items => exact absurd rfl (hna items)
      | _ => exact List.mem_singleton_self _
    · exact ⟨_, ha, hv⟩

theorem any_candidates_iff {doc : Document} {path : String} {p : Value → Bool} :
    ((doc.reached path).flatMap Value.candidates).any p = true ↔
      ∃ v, doc.Offers path v ∧ p v = true := by
  simp only [List.any_eq_true, mem_candidates_iff]

/-- An array that a path leads to counts as a whole and by its elements. -/
theorem any_reached_or_candidates_iff {doc : Document} {path : String} {p : Value → Bool} :
    (doc.reached path).any p = true ∨ ((doc.reached path).flatMap Value.candidates).any p = true ↔
      ∃ v, doc.Leads path v ∧
        (p v = true ∨ ∃ items, v = .array items ∧ ∃ w ∈ items, p w = true) := by
  rw [any_candidates_iff]
  simp only [List.any_eq_true, mem_reached_iff, Offers]
  constructor
  · rintro (⟨v, hv, hp⟩ | ⟨v, ⟨hv, -⟩ | ⟨items, ha, hm⟩, hp⟩)
    · exact ⟨v, hv, .inl hp⟩
    · exact ⟨v, hv, .inl hp⟩
    · exact ⟨_, ha, .inr ⟨items, rfl, v, hm, hp⟩⟩
  · rintro ⟨v, hv, hp | ⟨items, rfl, w, hw, hp⟩⟩
    · exact .inl ⟨v, hv, hp⟩
    · exact .inr ⟨w, .inr ⟨items, hv, hw⟩, hp⟩

theorem equalsAt_iff {doc : Document} {path : String} {value : Value} :
    doc.equalsAt path value = true ↔ doc.EqualTo path value := by
  unfold Document.equalsAt EqualTo
  split
  · rename_i hnone
    have hno := reached_eq_nil_iff.1 hnone
    simp only [hno, not_false_eq_true, implies_true, true_and, false_and, exists_false, or_false]
    cases value <;> simp
  · rename_i hsome
    have hno : ¬ ∀ v, ¬ doc.Leads path v := fun h => hsome (reached_eq_nil_iff.2 h)
    rw [Bool.or_eq_true, any_reached_or_candidates_iff]
    simp only [hno, false_and, false_or]

theorem equalsOneAt_iff {doc : Document} {path : String} {values : List Value} :
    doc.equalsOneAt path values = true ↔ ∃ value ∈ values.take 1000, doc.EqualTo path value := by
  simp only [Document.equalsOneAt, Filter.maxSetSize, List.any_eq_true, equalsAt_iff]

theorem inRangeAt_iff {doc : Document} {path : String} {op : Comparison} {value : Value} :
    doc.inRangeAt path op value = true ↔ doc.InRange path op value := by
  rw [Document.inRangeAt, any_candidates_iff, InRange]
  refine exists_congr fun v => and_congr_right fun _ => ?_
  cases h : v.compare? value with
  | none => simp
  | some order => simp [Comparison.admits_iff]

theorem presence_iff {doc : Document} {path : String} {expected : Bool} :
    (!(doc.reached path).isEmpty == expected) = true ↔
      ((∃ v, doc.Leads path v) ↔ expected = true) := by
  rw [← isEmpty_reached_eq_false_iff]
  cases (doc.reached path).isEmpty <;> cases expected <;> decide

end Document

/-! ## The evaluator -/

namespace Filter

theorem fulfilledBy_compare_iff {doc : Document} {path : String} {op : Comparison} {value : Value} :
    (compare path op value).fulfilledBy doc = true ↔ Holds doc (compare path op value) := by
  cases op <;>
    simp only [fulfilledBy, Holds, Document.comparesAt, Bool.not_eq_true', Bool.eq_false_iff, ne_eq,
      Document.equalsAt_iff, Document.inRangeAt_iff]

mutual

theorem fulfilledBy_iff (doc : Document) : ∀ f : Filter, f.fulfilledBy doc = true ↔ Holds doc f
  | always => by simp only [fulfilledBy, Holds]
  | and filters => by
    rw [fulfilledBy, Holds]
    exact allFulfilledBy_iff doc filters
  | or filters => by
    rw [fulfilledBy, Holds]
    exact anyFulfilledBy_iff doc filters
  | nor filters => by
    rw [fulfilledBy, Holds, Bool.not_eq_true', Bool.eq_false_iff]
    exact not_congr (anyFulfilledBy_iff doc filters)
  | not filter => by
    rw [fulfilledBy, Holds, Bool.not_eq_true', Bool.eq_false_iff]
    exact not_congr (fulfilledBy_iff doc filter)
  | presence path expected => by
    rw [fulfilledBy, Holds]
    exact Document.presence_iff
  | oneOf path values => by
    rw [fulfilledBy, Holds]
    exact Document.equalsOneAt_iff
  | noneOf path values => by
    rw [fulfilledBy, Holds, Bool.not_eq_true', Bool.eq_false_iff]
    exact not_congr Document.equalsOneAt_iff
  | compare _ _ _ => fulfilledBy_compare_iff

theorem allFulfilledBy_iff (doc : Document) : ∀ filters : List Filter,
    allFulfilledBy filters doc = true ↔ HoldsEvery doc filters
  | [] => by simp only [allFulfilledBy, HoldsEvery]
  | f :: rest => by
    rw [allFulfilledBy, HoldsEvery, Bool.and_eq_true]
    exact and_congr (fulfilledBy_iff doc f) (allFulfilledBy_iff doc rest)

theorem anyFulfilledBy_iff (doc : Document) : ∀ filters : List Filter,
    anyFulfilledBy filters doc = true ↔ HoldsSome doc filters
  | [] => by simp only [anyFulfilledBy, HoldsSome, Bool.false_eq_true]
  | f :: rest => by
    rw [anyFulfilledBy, HoldsSome, Bool.or_eq_true]
    exact or_congr (fulfilledBy_iff doc f) (anyFulfilledBy_iff doc rest)

end

/-- **The evaluator answers with the meaning of a filter**, for every filter and every document; the
segments that select an element of an array are the numerals below `2 ^ 64`. -/
theorem fulfilledBy_iff_holds :
    (∀ (f : Filter) (doc : Document), f.fulfilledBy doc = true ↔ Holds doc f) ∧
      ∀ (segment : String) (i : Nat), Path.index? segment = some i ↔ Path.Writes segment i :=
  ⟨fun f doc => fulfilledBy_iff doc f, fun _ _ => Path.index?_eq_some_iff⟩

end Filter

end DocStore
