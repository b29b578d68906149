import DocStore.Proofs.Semantics

/-!
# The grammar of filter documents

Which documents are filters, and what they say, both without the reader.

* `Filter.ValidFilter` is the grammar: filter documents (`ValidFilter`), their fields
  (`ValidClause`) and the fields of a document of operators (`ValidOperator`).
* `Filter.Selects` is the direct interpretation of a filter document: what its fields say of a
  document (`ClauseHolds`), and what operators on a path do (`OperatorHolds`).
* `Filter.HasList` finds the arrays under logical operators, at every depth where such an operator
  is read. The reader looks at no more than 128 of their entries (`ListsFit`).

Both are told field by field: `validOperator_iff`, `validClause_path_iff`,
`validClause_logical_iff` and `validFilter_iff` for the grammar, `selects_iff` and
`operatorsHold_iff` for what is said.
-/

namespace DocStore

namespace Filter

/-! ## Filter documents -/

/-- A field of a document of operators. -/
inductive ValidOperator : String → Value → Prop
  | test {operator : String} {operand : Value} :
    operator ∈ ["$eq", "$ne", "$gt", "$gte", "$lt", "$lte", "$exists"] →
      ValidOperator operator operand
  | set {operator : String} {values : List Value} :
    operator ∈ ["$in", "$nin"] → ValidOperator operator (.array values)
  | negation {fields : Document} :
    fields.startsWithOperator = true → (∀ field ∈ fields, ValidOperator field.1 field.2) →
      ValidOperator "$not" (.document fields)

mutual

/-- A document that is a filter: it has at most 128 fields, each of which is one of a filter. -/
inductive ValidFilter : Document → Prop
  | mk {fields : Document} :
    fields.length ≤ 128 → (∀ field ∈ fields, ValidClause field.1 field.2) → ValidFilter fields

/-- A field of a filter document. -/
inductive ValidClause : String → Value → Prop
  | logical {key : String} {entries : List Document} :
    key ∈ ["$and", "$or", "$nor"] → entries ≠ [] → (∀ entry ∈ entries, ValidFilter entry) →
      ValidClause key (.array (entries.map .document))
  | literal {path : String} {value : Value} :
    isOperatorName path = false →
      (∀ fields, value = .document fields → Document.startsWithOperator fields = false) →
      ValidClause path value
  | operators {path : String} {fields : Document} :
    isOperatorName path = false → fields.startsWithOperator = true →
      (∀ field ∈ fields, ValidOperator field.1 field.2) → ValidClause path (.document fields)

end

/-- The arrays under the logical operators of a filter document, at any depth. -/
inductive HasList : Document → List Value → Prop
  | here {fields : Document} {key : String} {items : List Value} :
    (key, .array items) ∈ fields → key ∈ ["$and", "$or", "$nor"] → HasList fields items
  | inner {fields : Document} {key : String} {items : List Value} {entry : Document}
    {more : List Value} :
    (key, .array items) ∈ fields → key ∈ ["$and", "$or", "$nor"] → .document entry ∈ items →
      HasList entry more → HasList fields more

/-! ## What filter documents say -/

/-- The operands of a presence test that ask for absence. -/
inductive Declines : Value → Prop
  | bool : Declines (.bool false)
  | int : Declines (.int 0)
  | long : Declines (.long 0)
  | zero : Declines (.double ⟨0⟩)
  | minusZero : Declines (.double ⟨0x8000000000000000⟩)
  | null : Declines .null
  | undefined : Declines .undefined

/-- What an operator other than negation says of the value at a path. A membership test looks at the
first 1000 values of its operand. -/
def TestHolds (doc : Document) (path operator : String) (operand : Value) : Prop :=
  if operator = "$eq" then doc.EqualTo path operand
  else if operator = "$ne" then ¬ doc.EqualTo path operand
  else if operator = "$gt" then doc.InRange path .gt operand
  else if operator = "$gte" then doc.InRange path .gte operand
  else if operator = "$lt" then doc.InRange path .lt operand
  else if operator = "$lte" then doc.InRange path .lte operand
  else if operator = "$in" then
    ∃ values, operand = .array values ∧ ∃ value ∈ values.take 1000, doc.EqualTo path value
  else if operator = "$nin" then
    ∃ values, operand = .array values ∧ ¬ ∃ value ∈ values.take 1000, doc.EqualTo path value
  else if operator = "$exists" then (∃ v, doc.Leads path v) ↔ ¬ Declines operand
  else False

mutual

/-- What a document of operators says of the value at a path: each of its operators does. -/
def OperatorsHold (doc : Document) (path : String) : List (String × Value) → Prop
  | [] => True
  | (operator, operand) :: rest =>
    OperatorHolds doc path operator operand ∧ OperatorsHold doc path rest

/-- What an operator says of the value at a path. -/
def OperatorHolds (doc : Document) (path operator : String) : Value → Prop
  | .document fields =>
    if operator = "$not" then ¬ OperatorsHold doc path fields
    else TestHolds doc path operator (.document fields)
  | operand => TestHolds doc path operator operand

end

/-- What the field of a path says: the operators of a document of operators, and otherwise equality
with the value. -/
def PathHolds (doc : Document) (path : String) : Value → Prop
  | .document fields =>
    if Document.startsWithOperator fields then OperatorsHold doc path fields
    else doc.EqualTo path (.document fields)
  | value => doc.EqualTo path value

mutual

/-- What a filter document says of a document: each of its fields does. -/
def Selects (doc : Document) : List (String × Value) → Prop
  | [] => True
  | (key, value) :: rest => ClauseHolds doc key value ∧ Selects doc rest

/-- What a field of a filter document says of a document. -/
def ClauseHolds (doc : Document) (key : String) : Value → Prop
  | .array items =>
    if key = "$and" then EveryHolds doc items
    else if key = "$or" then SomeHolds doc items
    else if key = "$nor" then ¬ SomeHolds doc items
    else PathHolds doc key (.array items)
  | value => PathHolds doc key value

/-- What the conjunction of filter documents says of a document. -/
def EveryHolds (doc : Document) : List Value → Prop
  | [] => True
  | item :: rest => EntryHolds doc item ∧ EveryHolds doc rest

/-- What the disjunction of filter documents says of a document. -/
def SomeHolds (doc : Document) : List Value → Prop
  | [] => False
  | item :: rest => EntryHolds doc item ∨ SomeHolds doc rest

/-- What an entry under a logical operator says of a document. -/
def EntryHolds (doc : Document) : Value → Prop
  | .document fields => Selects doc fields
  | _ => False

end

theorem operatorsHold_iff {doc : Document} {path : String} {fields : Document} :
    OperatorsHold doc path fields ↔
      ∀ field ∈ fields, OperatorHolds doc path field.1 field.2 := by
  induction fields with
  | nil => simp [OperatorsHold]
  | cons field rest ih => simp [OperatorsHold, ih]

theorem selects_iff {doc fields : Document} :
    Selects doc fields ↔ ∀ field ∈ fields, ClauseHolds doc field.1 field.2 := by
  induction fields with
  | nil => simp [Selects]
  | cons field rest ih => simp [Selects, ih]

theorem everyHolds_iff {doc : Document} {items : List Value} :
    EveryHolds doc items ↔ ∀ item ∈ items, EntryHolds doc item := by
  induction items with
  | nil => simp [EveryHolds]
  | cons item rest ih => simp [EveryHolds, ih]

theorem someHolds_iff {doc : Document} {items : List Value} :
    SomeHolds doc items ↔ ∃ item ∈ items, EntryHolds doc item := by
  induction items with
  | nil => simp [SomeHolds]
  | cons item rest ih => simp [SomeHolds, ih]

theorem clauseHolds_path {doc : Document} {key : String} {value : Value}
    (hk : key ∉ ["$and", "$or", "$nor"]) : ClauseHolds doc key value ↔ PathHolds doc key value := by
  simp only [List.mem_cons, List.not_mem_nil, or_false, not_or] at hk
  cases value with
  | array items => rw [ClauseHolds, if_neg hk.1, if_neg hk.2.1, if_neg hk.2.2]
  | _ => rfl

/-! ## The grammar, field by field -/

theorem validOperator_iff {operator : String} {operand : Value} :
    ValidOperator operator operand ↔
      operator ∈ ["$eq", "$ne", "$gt", "$gte", "$lt", "$lte", "$exists"] ∨
      (operator ∈ ["$in", "$nin"] ∧ ∃ values, operand = .array values) ∨
      (operator = "$not" ∧ ∃ fields, operand = .document fields ∧
        Document.startsWithOperator fields = true ∧
          ∀ field ∈ fields, ValidOperator field.1 field.2) := by
  constructor
  · rintro (h | h | ⟨hs, hv⟩)
    · exact .inl h
    · exact .inr (.inl ⟨h, _, rfl⟩)
    · exact .inr (.inr ⟨rfl, _, rfl, hs, hv⟩)
  · rintro (h | ⟨h, values, rfl⟩ | ⟨rfl, fields, rfl, hs, hv⟩)
    · exact .test h
    · exact .set h
    · exact .negation hs hv

theorem not_validOperator_not {operand : Value}
    (h : ∀ fields, operand = .document fields → Document.startsWithOperator fields = false) :
    ¬ ValidOperator "$not" operand := by
  intro hv
  rcases validOperator_iff.1 hv with ht | ⟨hs, -⟩ | ⟨-, fields, rfl, hs, -⟩
  · simp at ht
  · simp at hs
  · rw [h fields rfl] at hs
    cases hs

theorem isOperatorName_of_logical {key : String} (h : key ∈ ["$and", "$or", "$nor"]) :
    isOperatorName key = true := by
  simp only [List.mem_cons, List.not_mem_nil, or_false] at h
  rcases h with rfl | rfl | rfl <;> decide

theorem not_mem_logical {key : String} (hp : isOperatorName key = false) :
    key ∉ ["$and", "$or", "$nor"] := by
  intro hk
  rw [isOperatorName_of_logical hk] at hp
  cases hp

theorem validClause_path_iff {path : String} {value : Value} (hp : isOperatorName path = false) :
    ValidClause path value ↔ ∀ fields, value = .document fields →
      Document.startsWithOperator fields = true →
        ∀ field ∈ fields, ValidOperator field.1 field.2 := by
  constructor
  · rintro (⟨hk, -, -⟩ | ⟨-, hlit⟩ | ⟨-, -, hv⟩) fields hf hs
    · exact absurd hk (not_mem_logical hp)
    · rw [hlit fields hf] at hs
      cases hs
    · cases hf
      exact hv
  · intro h
    by_cases hd : ∃ fields, value = .document fields ∧ Document.startsWithOperator fields = true
    · obtain ⟨fields, rfl, hs⟩ := hd
      exact .operators hp hs (h fields rfl hs)
    · refine .literal hp fun fields hf => ?_
      by_contra hs
      exact hd ⟨fields, hf, by simpa using hs⟩

/-- Values that are all documents are a list of documents. -/
theorem eq_map_document {items : List Value}
    (h : ∀ item ∈ items, ∃ entry : Document, item = .document entry) :
    ∃ entries : List Document, items = entries.map .document := by
  induction items with
  | nil => exact ⟨[], rfl⟩
  | cons item rest ih =>
    obtain ⟨entry, rfl⟩ := h item (List.mem_cons_self ..)
    obtain ⟨entries, rfl⟩ := ih fun i hi => h i (List.mem_cons_of_mem _ hi)
    exact ⟨entry :: entries, rfl⟩

theorem validClause_logical_iff {key : String} {value : Value}
    (hk : key ∈ ["$and", "$or", "$nor"]) :
    ValidClause key value ↔ ∃ items, value = .array items ∧ items ≠ [] ∧
      ∀ item ∈ items, ∃ entry, item = .document entry ∧ ValidFilter entry := by
  constructor
  · rintro (⟨-, hne, hv⟩ | ⟨hp, -⟩ | ⟨hp, -, -⟩)
    · refine ⟨_, rfl, by simpa using hne, fun item hi => ?_⟩
      obtain ⟨entry, he, rfl⟩ := List.mem_map.1 hi
      exact ⟨entry, rfl, hv entry he⟩
    · exact absurd hk (not_mem_logical hp)
    · exact absurd hk (not_mem_logical hp)
  · rintro ⟨items, rfl, hne, hv⟩
    obtain ⟨entries, rfl⟩ := eq_map_document fun item hi => (hv item hi).imp fun _ h => h.1
    refine .logical hk (by simpa using hne) fun entry he => ?_
    obtain ⟨other, ho, hvalid⟩ := hv _ (List.mem_map_of_mem he)
    cases ho
    exact hvalid

theorem not_validClause {key : String} {value : Value} (hop : isOperatorName key = true)
    (hk : key ∉ ["$and", "$or", "$nor"]) : ¬ ValidClause key value := by
  rintro (⟨h, -, -⟩ | ⟨hp, -⟩ | ⟨hp, -, -⟩)
  · exact hk h
  · rw [hop] at hp
    cases hp
  · rw [hop] at hp
    cases hp

theorem validFilter_iff {fields : Document} :
    ValidFilter fields ↔
      fields.length ≤ 128 ∧ ∀ field ∈ fields, ValidClause field.1 field.2 :=
  ⟨fun | .mk hlen hv => ⟨hlen, hv⟩, fun ⟨hlen, hv⟩ => .mk hlen hv⟩

/-! ## The length of lists -/

/-- No array under a logical operator has more entries than are read. -/
def ListsFit (fields : Document) : Prop := ∀ items, HasList fields items → items.length ≤ 128

namespace ListsFit

variable {field : String × Value} {fields : Document}

theorem tail (h : ListsFit (field :: fields)) : ListsFit fields := by
  intro items hi
  refine h items ?_
  cases hi with
  | here hm hk => exact .here (List.mem_cons_of_mem _ hm) hk
  | inner hm hk he hin => exact .inner (List.mem_cons_of_mem _ hm) hk he hin

theorem length_le {key : String} {items : List Value} (h : ListsFit ((key, .array items) :: fields))
    (hk : key ∈ ["$and", "$or", "$nor"]) : items.length ≤ 128 :=
  h items (.here (List.mem_cons_self ..) hk)

theorem entry {key : String} {items : List Value} {entry : Document}
    (h : ListsFit ((key, .array items) :: fields)) (hk : key ∈ ["$and", "$or", "$nor"])
    (he : .document entry ∈ items) : ListsFit entry :=
  fun more hm => h more (.inner (List.mem_cons_self ..) hk he hm)

end ListsFit

end Filter

end DocStore
