import DocStore.Proofs.Resolving
import DocStore.Proofs.Ordering

/-!
# Ranges and equality

Equality of the value at a path looks at whole values, at the elements of arrays and at absence, a
range only at values that are no arrays and at elements. For a value that has an order they agree:
no array is equal to it, and equal values are in the order of equals.

* `Value.compare?_eq_eq_iff` says so of two values, and `Document.exists_offers_equal_iff` of the
  values that a path leads to.
* `Document.inRange_iff_of_bounds` relates a range to the same range without its bound.
* `Filter.fulfils_ranges` is the main statement, about filters and about the documents that write
  them.
-/

namespace DocStore

/-- A range without its bound, and the range with it. -/
inductive Comparison.Bounds : Comparison → Comparison → Prop
  | greater : Bounds gt gte
  | less : Bounds lt lte

theorem Comparison.Bounds.allows_iff {op wide : Comparison} (h : op.Bounds wide)
    {order : Ordering} :
    wide.Allows order ↔ op.Allows order ∨ order = .eq := by
  simp only [← Comparison.admits_iff]
  cases h <;> cases order <;> decide

/-! ## Values that have an order -/

namespace Value

variable {u v : Value} {p : Standing}

theorem isAtom_eq_of_identical (h : identical u v = true) : u.isAtom = v.isAtom := by
  unfold identical at h
  split at h
  all_goals first | rfl | cases h

/-- What is equal to a value stands for the same. -/
theorem Stands.of_equal_right (hp : v.Stands p) (h : u.equal v = true) : u.Stands p := by
  rw [(equal_of_not_isOpened u hp.not_isOpened).2, equalAtoms_iff] at h
  obtain ⟨x, y, hx, hy, hxy⟩ | ⟨-, hnone, hident⟩ := h
  · rw [hp.unique (.number hy), ← hxy]
    exact .number hx
  · have hatom : v.isAtom = true := by
      cases hp with
      | number hx => cases hnone.symm.trans hx
      | _ => rfl
    obtain ⟨d, e, -, rfl, -⟩ | rfl :=
      identical_of_isAtom ((isAtom_eq_of_identical hident).trans hatom) hident
    · cases hnone
    · exact hp

/-- A value with an order is equal to those that are in the order of equals with it. -/
theorem compare?_eq_eq_iff (hv : (v.compare? v).isSome = true) :
    u.compare? v = some .eq ↔ u.equal v = true := by
  constructor
  · exact equal_of_compare?
  · intro h
    obtain ⟨o, ho⟩ := Option.isSome_iff_exists.1 hv
    obtain ⟨p, -, hp, -, -⟩ := compare?_eq_some_iff.1 ho
    exact compare?_eq_some_iff.2 ⟨p, p, hp.of_equal_right h, hp, p.compare?_self⟩

/-- No array is equal to a value with an order. -/
theorem ne_array_of_equal (hv : (v.compare? v).isSome = true) (h : u.equal v = true)
    (items : List Value) : u ≠ array items := by
  rintro rfl
  obtain ⟨ys, rfl, -⟩ := equal_array_iff.1 h
  cases hv

end Value

/-! ## Values at a path -/

namespace Document

variable {doc : Document} {path : String} {v : Value}

/-- Equality with a value that has an order is a matter of the values that a range looks at, unless
the path leads nowhere. -/
theorem exists_offers_equal_iff (hv : (v.compare? v).isSome = true) :
    (∃ u, doc.Offers path u ∧ u.equal v = true) ↔
      doc.EqualTo path v ∧ ∃ u, doc.Leads path u := by
  constructor
  · rintro ⟨u, ⟨hu, -⟩ | ⟨items, hitems, hu⟩, h⟩
    · exact ⟨.inr ⟨u, hu, .inl h⟩, u, hu⟩
    · exact ⟨.inr ⟨_, hitems, .inr ⟨items, rfl, u, hu, h⟩⟩, _, hitems⟩
  · rintro ⟨⟨hno, -⟩ | ⟨u, hu, h | ⟨items, rfl, w, hw, h⟩⟩, hsome⟩
    · obtain ⟨u, hu⟩ := hsome
      exact absurd hu (hno u)
    · exact ⟨u, .inl ⟨hu, Value.ne_array_of_equal hv h⟩, h⟩
    · exact ⟨w, .inr ⟨items, hu, hw⟩, h⟩

theorem inRange_iff_of_bounds {op wide : Comparison} (h : op.Bounds wide)
    (hv : (v.compare? v).isSome = true) :
    doc.InRange path wide v ↔
      doc.InRange path op v ∨ doc.EqualTo path v ∧ ∃ u, doc.Leads path u := by
  rw [← exists_offers_equal_iff hv]
  constructor
  · rintro ⟨u, hu, order, horder, hallows⟩
    obtain hstrict | rfl := h.allows_iff.1 hallows
    · exact .inl ⟨u, hu, order, horder, hstrict⟩
    · exact .inr ⟨u, hu, (Value.compare?_eq_eq_iff hv).1 horder⟩
  · rintro (⟨u, hu, order, horder, hstrict⟩ | ⟨u, hu, hequal⟩)
    · exact ⟨u, hu, order, horder, h.allows_iff.2 (.inl hstrict)⟩
    · exact ⟨u, hu, .eq, (Value.compare?_eq_eq_iff hv).2 hequal, h.allows_iff.2 (.inr rfl)⟩

end Document

/-! ## Filters -/

/-- A document fulfils what a filter document writes. -/
def Document.Fulfils (doc filter : Document) : Prop :=
  ∃ f, Filter.ofDocument filter = .ok f ∧ f.fulfilledBy doc = true

theorem Document.fulfils_iff {doc filter : Document} {f : Filter}
    (h : Filter.ofDocument filter = .ok f) : doc.Fulfils filter ↔ f.fulfilledBy doc = true := by
  simp [Fulfils, h]

namespace Filter

/-- The filter document that asks one operator of the value at a path. -/
def asking (path operator : String) (operand : Value) : Document :=
  [(path, .document [(operator, operand)])]

theorem ofDocument_asking {path : String} (hp : isOperatorName path = false) (op : Comparison)
    (operand : Value) :
    ofDocument (asking path op.name operand) = .ok (compare path op operand) := by
  rw [asking, ofDocument_singleton _ hp]
  cases op <;> rfl

theorem ofDocument_asking_exists {path : String} (hp : isOperatorName path = false) :
    ofDocument (asking path "$exists" (.bool true)) = .ok (presence path true) := by
  rw [asking, ofDocument_singleton _ hp]
  rfl

theorem fulfilledBy_iff_of_bounds {op wide : Comparison} (h : op.Bounds wide) {v : Value}
    (hv : (v.compare? v).isSome = true) (doc : Document) (path : String) :
    (compare path wide v).fulfilledBy doc = true ↔
      (compare path op v).fulfilledBy doc = true ∨
        (compare path .eq v).fulfilledBy doc = true ∧
          (presence path true).fulfilledBy doc = true := by
  simp only [fulfilledBy_iff, Holds, iff_true]
  cases h with
  | greater => exact Document.inRange_iff_of_bounds .greater hv
  | less => exact Document.inRange_iff_of_bounds .less hv

theorem not_fulfils_asking {path : String} (hp : isOperatorName path = true) (doc : Document)
    (operator : String) (operand : Value) : ¬ doc.Fulfils (asking path operator operand) := by
  rintro ⟨f, hf, -⟩
  rw [asking, ofDocument_singleton_operator hp rfl] at hf
  cases hf

theorem fulfils_iff_of_bounds {op wide : Comparison} (h : op.Bounds wide) {v : Value}
    (hv : (v.compare? v).isSome = true) (doc : Document) (path : String) :
    doc.Fulfils (asking path wide.name v) ↔
      doc.Fulfils (asking path op.name v) ∨
        doc.Fulfils (asking path "$eq" v) ∧ doc.Fulfils (asking path "$exists" (.bool true)) := by
  cases hp : isOperatorName path with
  | true => simp [not_fulfils_asking hp]
  | false =>
    have hequal : doc.Fulfils (asking path "$eq" v) ↔ (compare path .eq v).fulfilledBy doc = true :=
      Document.fulfils_iff (ofDocument_asking hp .eq v)
    rw [Document.fulfils_iff (ofDocument_asking hp wide v),
      Document.fulfils_iff (ofDocument_asking hp op v), hequal,
      Document.fulfils_iff (ofDocument_asking_exists hp)]
    exact fulfilledBy_iff_of_bounds h hv doc path

/-- **Ranges agree with equality.** For a value that has an order, at least is greater, or equal
where the path leads to a value at all; and at most is less, or equal there. This holds of every
document and every path, and of the documents that write these filters, which are read as them
unless the path is named like an operator. -/
theorem fulfils_ranges {v : Value} (hv : (v.compare? v).isSome = true) (doc : Document)
    (path : String) :
    ((compare path .gte v).fulfilledBy doc = true ↔
      (compare path .gt v).fulfilledBy doc = true ∨
        (compare path .eq v).fulfilledBy doc = true ∧
          (presence path true).fulfilledBy doc = true) ∧
    ((compare path .lte v).fulfilledBy doc = true ↔
      (compare path .lt v).fulfilledBy doc = true ∨
        (compare path .eq v).fulfilledBy doc = true ∧
          (presence path true).fulfilledBy doc = true) ∧
    (doc.Fulfils (asking path "$gte" v) ↔ doc.Fulfils (asking path "$gt" v) ∨
      doc.Fulfils (asking path "$eq" v) ∧ doc.Fulfils (asking path "$exists" (.bool true))) ∧
    (doc.Fulfils (asking path "$lte" v) ↔ doc.Fulfils (asking path "$lt" v) ∨
      doc.Fulfils (asking path "$eq" v) ∧ doc.Fulfils (asking path "$exists" (.bool true))) ∧
    (isOperatorName path = false →
      (∀ (op : Comparison) (operand : Value),
        ofDocument (asking path op.name operand) = .ok (compare path op operand)) ∧
      ofDocument (asking path "$exists" (.bool true)) = .ok (presence path true)) :=
  ⟨fulfilledBy_iff_of_bounds .greater hv doc path, fulfilledBy_iff_of_bounds .less hv doc path,
    fulfils_iff_of_bounds .greater hv doc path, fulfils_iff_of_bounds .less hv doc path,
    fun hp => ⟨ofDocument_asking hp, ofDocument_asking_exists hp⟩⟩

/-- Among the elements of a field a decimal that is no number, asked of a double that is none. -/
theorem fulfils_ranges_nan :
    Document.Fulfils [("a", .array [.string "b", .decimal .nan])]
      (asking "a" "$gte" (.double Double.nan)) := by
  have hv : ((Value.double Double.nan).compare? (.double Double.nan)).isSome = true := by
    decide +kernel
  obtain ⟨-, -, hgte, -, hread⟩ :=
    fulfils_ranges hv [("a", .array [.string "b", .decimal .nan])] "a"
  obtain ⟨hcompare, hexists⟩ := hread (by decide)
  refine hgte.2 (.inr ⟨?_, ?_⟩)
  · exact (Document.fulfils_iff (hcompare .eq _)).2 (by decide +kernel)
  · exact (Document.fulfils_iff hexists).2 (by decide +kernel)

/-- Null equals an absent field, which no range finds. -/
example : (compare "a" .eq .null).fulfilledBy [] = true ∧
    (compare "a" .gte .null).fulfilledBy [] = false := by decide

end Filter

end DocStore
