import DocStore.Proofs.Agreement
import DocStore.Proofs.Resolving

/-!
# Data in queries

A lookup asks with a filter document, and the value that it looks up stands in that document as
data. A value may be a document whose fields are named like operators; such a one is put under the
equality operator, and one that already has that form is put under it once more.

* `Lookup.equalityFilter_cases` says which values are put under the operator, and
  `Lookup.equalityFilter_injective` that the filter document still tells the value.
* `Lookup.equalityFilter_literal` is the main statement: the reader takes it for this value.
-/

namespace DocStore

namespace Filter

/-- The field of a path that is named like an operator is not read as a comparison. -/
theorem ofDocument_singleton_ne_equality {key path : String} {operand value : Value}
    (hk : isOperatorName key = true) :
    ofDocument [(key, operand)] ≠ .ok (equality path value) := by
  intro hread
  rw [ofDocument, if_neg (by simp [maxClauses]), readClauses_eq] at hread
  obtain ⟨clauses, hclauses, hall⟩ := exists_of_map_eq_ok hread
  obtain ⟨clause, rest, hclause, hrest, rfl⟩ :=
    List.forall₂_cons_left_iff.1 (mapM_eq_ok_iff.1 hclauses)
  obtain rfl := List.forall₂_nil_left_iff.1 hrest
  obtain rfl : clause = equality path value := hall
  rw [readClause] at hclause
  cases hc : combination? key with
  | some combine =>
    rw [hc] at hclause
    obtain ⟨filters, -, hcombine⟩ := exists_of_map_eq_ok hclause
    rcases combination?_eq_some_iff.1 hc with ⟨-, rfl⟩ | ⟨-, rfl⟩ | ⟨-, rfl⟩ <;> cases hcombine
  | none =>
    rw [hc, if_pos hk] at hclause
    cases hclause

end Filter

namespace Lookup

variable {σ : Type} (l : Lookup σ)

/-- A document of operators is put under the equality operator, any other value stands as it is. -/
theorem equalityFilter_cases (value : Value) :
    (∃ fields : Document, value = .document fields ∧ fields.startsWithOperator = true ∧
      l.equalityFilter value = [(l.foreignField, .document [("$eq", value)])]) ∨
    ((∀ fields : Document, value = .document fields → fields.startsWithOperator = false) ∧
      l.equalityFilter value = [(l.foreignField, value)]) := by
  unfold equalityFilter
  split
  · rename_i fields
    split_ifs with hstarts
    · exact .inl ⟨fields, rfl, hstarts, rfl⟩
    · refine .inr ⟨?_, rfl⟩
      rintro _ ⟨⟩
      simpa using hstarts
  · rename_i hne
    exact .inr ⟨fun fields hfields => absurd hfields (hne fields), rfl⟩

/-- The filter document of a value tells which value it is. A value that has the form of the escape
of another is not mistaken for it, since it is put under the operator itself. -/
theorem equalityFilter_injective : Function.Injective l.equalityFilter := by
  intro v w h
  have hescape : ∀ other : Value, Document.startsWithOperator [("$eq", other)] = true :=
    fun _ => rfl
  rcases l.equalityFilter_cases v with ⟨_, _, _, hv⟩ | ⟨hdata, hv⟩ <;>
    rcases l.equalityFilter_cases w with ⟨_, _, _, hw⟩ | ⟨hdata', hw⟩ <;>
      rw [hv, hw, List.singleton_inj, Prod.mk.injEq] at h
  · simpa using h.2
  -- the escape of one value would be the other value as it is, which is a document of operators
  · exact absurd (hescape v) (by simp [hdata' _ h.2.symm])
  · exact absurd (hescape w) (by simp [hdata _ h.2])
  · exact h.2

/-- **Data is never read as an operator.** The filter document that a lookup asks with for a value
is read as equality with just this value, unless the foreign field is named like an operator.
Neither the kind of the value plays a part nor how fields are named in it, at any depth. No other
value is asked for with the same filter document. -/
theorem equalityFilter_literal (value : Value) :
    (Filter.ofDocument (l.equalityFilter value) = .ok (.equality l.foreignField value) ↔
      isOperatorName l.foreignField = false) ∧
    ∀ other, l.equalityFilter other = l.equalityFilter value ↔ other = value := by
  refine ⟨⟨fun hread => ?_, l.ofDocument_equalityFilter value⟩,
    fun other => l.equalityFilter_injective.eq_iff⟩
  rw [← Bool.not_eq_true]
  intro hk
  rcases l.equalityFilter_cases value with ⟨_, _, _, hvalue⟩ | ⟨_, hvalue⟩
  · rw [hvalue] at hread
    exact Filter.ofDocument_singleton_ne_equality hk hread
  · rw [hvalue] at hread
    exact Filter.ofDocument_singleton_ne_equality hk hread

/-- Data of the form that operators are escaped to. -/
example : l.equalityFilter (.document [("$eq", .document [("$gt", .int 1)])]) =
    [(l.foreignField, .document [("$eq", .document [("$eq", .document [("$gt", .int 1)])])])] := rfl

end Lookup

end DocStore
