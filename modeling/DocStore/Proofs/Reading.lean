import Mathlib.Data.List.Forall2
import DocStore.Filter.Parser
import DocStore.Proofs.Grammar

/-!
# Reading filter documents

The reader accepts the grammar of filter documents, and what it makes of one is fulfilled by the
documents that the filter document selects.

* `Filter.Reads` says of a reading that it answers exactly on a condition, and then with a filter of
  a given meaning; `Filter.ReadsEach` says it of a reading of several filters.
* There is one lemma for each part of the reader: `reads_test`, `reads_operators`, `reads_path`,
  `reads_clauses`. The readers of operators and of fields go by recursion on the document.
* `Filter.ofDocument_reads` is the main statement.
-/

namespace DocStore

namespace Filter

/-! ## Readings -/

/-- A filter has a meaning. -/
def Means (f : Filter) (meaning : Document → Prop) : Prop :=
  ∀ doc, f.fulfilledBy doc = true ↔ meaning doc

/-- A reading answers with a filter exactly on a condition, and then with one of a meaning. -/
structure Reads (reading : Except QueryFault Filter) (valid : Prop)
    (meaning : Document → Prop) : Prop where
  accepts : (∃ f, reading = .ok f) ↔ valid
  means : ∀ f, reading = .ok f → f.Means meaning

/-- The same of a reading of several filters, each of a meaning of its own. -/
structure ReadsEach (reading : Except QueryFault (List Filter)) (valid : Prop)
    (meanings : List (Document → Prop)) : Prop where
  accepts : (∃ filters, reading = .ok filters) ↔ valid
  means : ∀ filters, reading = .ok filters → List.Forall₂ Means filters meanings

theorem Means.all {filters : List Filter} {meanings : List (Document → Prop)}
    (h : List.Forall₂ Means filters meanings) (doc : Document) :
    filters.all (·.fulfilledBy doc) = true ↔ ∀ meaning ∈ meanings, meaning doc := by
  induction h with
  | nil => simp
  | cons hf _ ih => rw [List.all_cons, Bool.and_eq_true, hf doc, ih, List.forall_mem_cons]

theorem Means.any {filters : List Filter} {meanings : List (Document → Prop)}
    (h : List.Forall₂ Means filters meanings) (doc : Document) :
    filters.any (·.fulfilledBy doc) = true ↔ ∃ meaning ∈ meanings, meaning doc := by
  induction h with
  | nil => simp
  | cons hf _ ih => rw [List.any_cons, Bool.or_eq_true, hf doc, ih, List.exists_mem_cons_iff]

namespace Reads

variable {valid : Prop} {meaning : Document → Prop}

theorem ok {f : Filter} (hv : valid) (hm : f.Means meaning) : Reads (.ok f) valid meaning where
  accepts := ⟨fun _ => hv, fun _ => ⟨f, rfl⟩⟩
  means g h := by
    obtain rfl := Except.ok.inj h
    exact hm

theorem error {fault : QueryFault} (hv : ¬ valid) : Reads (.error fault) valid meaning where
  accepts := ⟨(fun ⟨_, h⟩ => nomatch h), fun h => absurd h hv⟩
  means _ h := by cases h

theorem congr {reading : Except QueryFault Filter} {valid' : Prop} {meaning' : Document → Prop}
    (h : Reads reading valid meaning) (hv : valid ↔ valid')
    (hm : ∀ doc, meaning doc ↔ meaning' doc) :
    Reads reading valid' meaning' where
  accepts := h.accepts.trans hv
  means f hf doc := (h.means f hf doc).trans (hm doc)

end Reads

namespace ReadsEach

variable {valid : Prop} {meanings : List (Document → Prop)}

theorem nil : ReadsEach (.ok []) True [] where
  accepts := ⟨fun _ => trivial, fun _ => ⟨[], rfl⟩⟩
  means fs h := by
    obtain rfl := Except.ok.inj h
    exact .nil

theorem error {fault : QueryFault} (hv : ¬ valid) : ReadsEach (.error fault) valid meanings where
  accepts := ⟨(fun ⟨_, h⟩ => nomatch h), fun h => absurd h hv⟩
  means _ h := by cases h

theorem congr {reading : Except QueryFault (List Filter)} {valid' : Prop}
    (h : ReadsEach reading valid meanings) (hv : valid ↔ valid') :
    ReadsEach reading valid' meanings where
  accepts := h.accepts.trans hv
  means := h.means

/-- One filter is read before the others. -/
theorem cons {first : Except QueryFault Filter} {others : Except QueryFault (List Filter)}
    {valid₁ : Prop} {meaning : Document → Prop} (h₁ : Reads first valid₁ meaning)
    (h₂ : ReadsEach others valid meanings) :
    ReadsEach (do let f ← first; let fs ← others; return f :: fs) (valid₁ ∧ valid)
      (meaning :: meanings) := by
  cases hf : first with
  | error fault =>
    refine error fun hv => ?_
    obtain ⟨f, h⟩ := h₁.accepts.2 hv.1
    rw [hf] at h
    cases h
  | ok f =>
    cases hfs : others with
    | error fault =>
      refine error fun hv => ?_
      obtain ⟨fs, h⟩ := h₂.accepts.2 hv.2
      rw [hfs] at h
      cases h
    | ok fs =>
      refine ⟨⟨fun _ => ⟨h₁.accepts.1 ⟨f, hf⟩, h₂.accepts.1 ⟨fs, hfs⟩⟩, fun _ => ⟨_, rfl⟩⟩, ?_⟩
      intro gs hgs
      obtain rfl := Except.ok.inj hgs
      exact .cons (h₁.means f hf) (h₂.means fs hfs)

/-- Filters that are read are combined into one. -/
theorem map {reading : Except QueryFault (List Filter)} (h : ReadsEach reading valid meanings)
    (combine : List Filter → Filter) {meaning : Document → Prop}
    (hc : ∀ filters, List.Forall₂ Means filters meanings → (combine filters).Means meaning) :
    Reads (reading.map combine) valid meaning := by
  cases hr : reading with
  | error fault =>
    refine .error fun hv => ?_
    obtain ⟨fs, hfs⟩ := h.accepts.2 hv
    rw [hr] at hfs
    cases hfs
  | ok fs => exact .ok (h.accepts.1 ⟨fs, hr⟩) (hc fs (h.means fs hr))

theorem allOf {reading : Except QueryFault (List Filter)} (h : ReadsEach reading valid meanings) :
    Reads (reading.map Filter.allOf) valid fun doc => ∀ meaning ∈ meanings, meaning doc :=
  h.map _ fun filters hm doc => by rw [fulfilledBy_allOf, Means.all hm]

end ReadsEach

/-! ## Operators on a path -/

theorem declines_double_iff {d : Double} : Declines (.double d) ↔ d.isZero = true := by
  rw [Double.isZero_iff]
  constructor
  · rintro (_ | _)
    · exact .inl rfl
    · exact .inr rfl
  · rintro (rfl | rfl)
    · exact .zero
    · exact .minusZero

theorem asksPresence_iff {operand : Value} : asksPresence operand = true ↔ ¬ Declines operand := by
  cases operand with
  | bool b =>
    cases b with
    | false => exact iff_of_false (by decide) (not_not_intro .bool)
    | true => exact iff_of_true rfl nofun
  | int n =>
    rw [asksPresence, bne_iff_ne]
    exact not_congr ⟨(fun h => h ▸ .int), fun | .int => rfl⟩
  | long n =>
    rw [asksPresence, bne_iff_ne]
    exact not_congr ⟨(fun h => h ▸ .long), fun | .long => rfl⟩
  | double d =>
    rw [declines_double_iff, asksPresence]
    cases hz : d.isZero with
    | false => simp
    | true => simp [Double.isNaN_eq_false_of_isZero hz]
  | null => exact iff_of_false (by decide) (not_not_intro .null)
  | undefined => exact iff_of_false (by decide) (not_not_intro .undefined)
  | _ => exact iff_of_true rfl nofun

theorem readSet_cases (operator : String) (operand : Value) :
    (∃ values, operand = .array values ∧ readSet operator operand = .ok (values.take 1000)) ∨
      (∀ values, operand ≠ .array values) ∧
        readSet operator operand = .error (.setNotArray operator) := by
  cases operand with
  | array values => exact .inl ⟨values, rfl, rfl⟩
  | _ => exact .inr ⟨(fun _ h => nomatch h), rfl⟩

theorem comparison?_eq_some_iff {operator : String} {op : Comparison} :
    comparison? operator = some op ↔ operator = op.name := by
  constructor
  · intro h
    unfold comparison? at h
    split_ifs at h with h₁ h₂ h₃ h₄ h₅ h₆ <;> cases h <;> assumption
  · rintro rfl
    cases op <;> simp [comparison?, Comparison.name]

theorem testHolds_name {doc : Document} {path : String} {op : Comparison} {operand : Value} :
    TestHolds doc path op.name operand ↔ Holds doc (compare path op operand) := by
  cases op <;> simp [TestHolds, Comparison.name, Holds]

theorem testHolds_in {doc : Document} {path : String} {values : List Value} :
    TestHolds doc path "$in" (.array values) ↔ Holds doc (oneOf path (values.take 1000)) := by
  simp [TestHolds, Holds, List.take_take]

theorem testHolds_nin {doc : Document} {path : String} {values : List Value} :
    TestHolds doc path "$nin" (.array values) ↔ Holds doc (noneOf path (values.take 1000)) := by
  simp [TestHolds, Holds, List.take_take]

theorem testHolds_exists {doc : Document} {path : String} {operand : Value} :
    TestHolds doc path "$exists" operand ↔ Holds doc (presence path (asksPresence operand)) := by
  simp [TestHolds, Holds, asksPresence_iff]

/-- A membership test is read when its operand is an array. -/
theorem reads_set {path operator : String} {operand : Value} {combine : List Value → Filter}
    (hop : operator ∈ ["$in", "$nin"])
    (hm : ∀ doc values, TestHolds doc path operator (.array values) ↔
      Holds doc (combine (values.take 1000))) :
    Reads ((readSet operator operand).map combine) (ValidOperator operator operand)
      fun doc => TestHolds doc path operator operand := by
  rcases readSet_cases operator operand with ⟨values, rfl, hr⟩ | ⟨hna, hr⟩ <;> rw [hr]
  · exact .ok (.set hop) fun doc => by rw [hm, fulfilledBy_iff]
  · refine .error fun hv => ?_
    rcases validOperator_iff.1 hv with ht | ⟨-, values, rfl⟩ | ⟨rfl, -⟩
    · simp only [List.mem_cons, List.not_mem_nil, or_false] at hop
      rcases hop with rfl | rfl <;> simp at ht
    · exact hna values rfl
    · simp at hop

/-- **One operator other than negation is read as what it says.** -/
theorem reads_test {path operator : String} {operand : Value} (hn : operator ≠ "$not") :
    Reads (readTest path operator operand) (ValidOperator operator operand)
      fun doc => TestHolds doc path operator operand := by
  unfold readTest
  split
  · rename_i op hop
    obtain rfl := comparison?_eq_some_iff.1 hop
    refine .ok (.test (by cases op <;> simp [Comparison.name])) fun doc => ?_
    rw [testHolds_name, fulfilledBy_iff]
  · rename_i hop
    have hcmp : ∀ op : Comparison, operator ≠ op.name := fun op h => by
      rw [comparison?_eq_some_iff.2 h] at hop
      cases hop
    split_ifs with hin hnin hex
    · subst hin
      exact reads_set (by simp) fun _ _ => testHolds_in
    · subst hnin
      exact reads_set (by simp) fun _ _ => testHolds_nin
    · subst hex
      exact .ok (.test (by simp)) fun doc => by rw [testHolds_exists, fulfilledBy_iff]
    · refine .error fun hv => ?_
      rcases validOperator_iff.1 hv with ht | ⟨hs, -⟩ | ⟨rfl, -⟩
      · have := hcmp .eq
        have := hcmp .ne
        have := hcmp .gt
        have := hcmp .gte
        have := hcmp .lt
        have := hcmp .lte
        simp_all [Comparison.name]
      · simp [hin, hnin] at hs
      · exact hn rfl

mutual

/-- **A document of operators is read as the conjunction of what they say.** -/
theorem reads_operators (path : String) : ∀ fields : List (String × Value),
    ReadsEach (readOperators path fields) (∀ field ∈ fields, ValidOperator field.1 field.2)
      (fields.map fun field doc => OperatorHolds doc path field.1 field.2)
  | [] => by
    rw [readOperators]
    exact ReadsEach.nil.congr (by simp)
  | (operator, operand) :: rest => by
    have hrest := reads_operators path rest
    rw [readOperators]
    split_ifs with hn
    · subst hn
      exact (ReadsEach.cons (reads_negation path operand) hrest).congr (by simp)
    · have hmeans : ∀ doc, TestHolds doc path operator operand ↔
          OperatorHolds doc path operator operand := fun doc => by
        cases operand <;> simp [OperatorHolds, hn]
      exact (ReadsEach.cons ((reads_test hn).congr Iff.rfl hmeans) hrest).congr (by simp)

/-- A negation is read as the negation of what its operators say. -/
theorem reads_negation (path : String) : ∀ operand : Value,
    Reads (readNegation path operand) (ValidOperator "$not" operand)
      fun doc => OperatorHolds doc path "$not" operand
  | .document fields => by
    have hfields := reads_operators path fields
    rw [readNegation]
    split_ifs with hs
    · have hvalid : (∀ field ∈ fields, ValidOperator field.1 field.2) ↔
          ValidOperator "$not" (.document fields) := by
        rw [validOperator_iff]
        simp [hs]
      refine (hfields.map (fun clauses => not (allOf clauses)) fun clauses hm doc => ?_).congr
        hvalid fun _ => Iff.rfl
      rw [OperatorHolds, if_pos rfl, operatorsHold_iff, fulfilledBy, Bool.not_eq_true',
        Bool.eq_false_iff, ne_eq, fulfilledBy_allOf, Means.all hm, List.forall_mem_map]
    · exact .error (not_validOperator_not fun f hf => by cases hf; simpa using hs)
  | .null | .bool _ | .int _ | .long _ | .double _ | .decimal _ | .string _ | .array _
  | .objectId _ | .date _ | .timestamp _ _ | .binary _ _ | .regex _ _ | .javaScript _
  | .javaScriptWithScope _ _ | .symbol _ | .undefined | .minKey | .maxKey | .dbPointer _ _ => by
    rw [readNegation]
    · exact .error (not_validOperator_not fun _ hf => nomatch hf)
    · exact fun _ hf => nomatch hf

end

/-! ## Fields of a filter document -/

/-- **The field of a path is read as what it says.** -/
theorem reads_path {path : String} (hp : isOperatorName path = false) (value : Value) :
    Reads (readPath path value) (ValidClause path value) fun doc => PathHolds doc path value := by
  have hequal : ∀ v : Value, (equality path v).Means fun doc => doc.EqualTo path v :=
    fun v _ => fulfilledBy_compare_iff
  cases value with
  | document fields =>
    rw [readPath]
    split_ifs with hs
    · have hvalid : (∀ field ∈ fields, ValidOperator field.1 field.2) ↔
          ValidClause path (.document fields) := by
        rw [validClause_path_iff hp]
        exact ⟨fun h f hf _ => by cases hf; exact h, fun h => h fields rfl hs⟩
      refine (reads_operators path fields).allOf.congr hvalid fun doc => ?_
      rw [PathHolds, if_pos hs, operatorsHold_iff, List.forall_mem_map]
    · refine .ok ((validClause_path_iff hp).2 fun f hf h => ?_) fun doc => ?_
      · cases hf
        exact absurd h hs
      · rw [PathHolds, if_neg hs]
        exact hequal _ doc
  | _ => exact .ok ((validClause_path_iff hp).2 fun f hf => nomatch hf) (hequal _)

/-! ## Logical operators -/

theorem combination?_eq_some_iff {key : String} {combine : List Filter → Filter} :
    combination? key = some combine ↔
      key = "$and" ∧ combine = and ∨ key = "$or" ∧ combine = or ∨ key = "$nor" ∧ combine = nor := by
  unfold combination?
  split_ifs with h₁ h₂ h₃
  · subst h₁
    simp [eq_comm]
  · subst h₂
    simp [eq_comm]
  · subst h₃
    simp [eq_comm]
  · simp [h₁, h₂, h₃]

theorem mem_logical_of_combination? {key : String} {combine : List Filter → Filter}
    (h : combination? key = some combine) : key ∈ ["$and", "$or", "$nor"] := by
  rcases combination?_eq_some_iff.1 h with ⟨rfl, -⟩ | ⟨rfl, -⟩ | ⟨rfl, -⟩ <;> simp

theorem not_mem_logical_of_combination? {key : String} (h : combination? key = none) :
    key ∉ ["$and", "$or", "$nor"] := by
  simp only [List.mem_cons, List.not_mem_nil, or_false]
  rintro (rfl | rfl | rfl) <;> simp [combination?] at h

/-- The combination of filters means what the logical operator says of their documents. -/
theorem means_combination {key : String} {combine : List Filter → Filter} {items : List Value}
    (hc : combination? key = some combine) {filters : List Filter}
    (h : List.Forall₂ Means filters (items.map fun item doc => EntryHolds doc item)) :
    (combine filters).Means fun doc => ClauseHolds doc key (.array items) := by
  intro doc
  show (combine filters).fulfilledBy doc = true ↔ ClauseHolds doc key (.array items)
  have hall := Means.all h doc
  have hany := Means.any h doc
  rw [List.forall_mem_map, ← everyHolds_iff] at hall
  have hany' : filters.any (·.fulfilledBy doc) = true ↔ SomeHolds doc items := by
    rw [hany, someHolds_iff]
    simp
  rcases combination?_eq_some_iff.1 hc with ⟨rfl, rfl⟩ | ⟨rfl, rfl⟩ | ⟨rfl, rfl⟩
  · rw [ClauseHolds, if_pos rfl, fulfilledBy, allFulfilledBy_eq, hall]
  · rw [ClauseHolds, if_neg (by decide), if_pos rfl, fulfilledBy, anyFulfilledBy_eq, hany']
  · rw [ClauseHolds, if_neg (by decide), if_neg (by decide), if_pos rfl, fulfilledBy,
      Bool.not_eq_true', Bool.eq_false_iff, ne_eq, anyFulfilledBy_eq, hany']

/-! ## Filter documents, by recursion -/

mutual

/-- **The fields of a filter document are read as what they say.** -/
theorem reads_clauses : ∀ fields : List (String × Value), ListsFit fields →
    ReadsEach (readClauses fields) (∀ field ∈ fields, ValidClause field.1 field.2)
      (fields.map fun field doc => ClauseHolds doc field.1 field.2)
  | [], _ => by
    rw [readClauses]
    exact ReadsEach.nil.congr (by simp)
  | (key, value) :: rest, hfit => by
    have hrest := reads_clauses rest hfit.tail
    rw [readClauses]
    split
    · rename_i combine hc
      have hk := mem_logical_of_combination? hc
      have hlist := reads_list key combine hc value
        (fun items hi => by subst hi; exact hfit.length_le hk)
        (fun items hi entry he => by subst hi; exact hfit.entry hk he)
      have hvalid : ValidClause key value ∧ (∀ field ∈ rest, ValidClause field.1 field.2) ↔
          ∀ field ∈ (key, value) :: rest, ValidClause field.1 field.2 := by simp
      have hcons := (ReadsEach.cons hlist hrest).congr hvalid
      -- The reader combines the filters of the list in a step of its own.
      cases hr : readList key value <;> rw [hr] at hcons <;> exact hcons
    · rename_i hc
      have hk := not_mem_logical_of_combination? hc
      split_ifs with hop
      · refine .error fun hv => ?_
        exact not_validClause hop hk (hv (key, value) (List.mem_cons_self ..))
      · have hpath := reads_path (Bool.eq_false_iff.2 hop) value
        have hclause := hpath.congr Iff.rfl fun doc => (clauseHolds_path hk).symm
        exact (ReadsEach.cons hclause hrest).congr (by simp)

/-- The array under a logical operator is read as what the operator says of its entries. -/
theorem reads_list (operator : String) (combine : List Filter → Filter)
    (hc : combination? operator = some combine) : ∀ value : Value,
    (∀ items, value = .array items → items.length ≤ 128) →
    (∀ items, value = .array items → ∀ entry, .document entry ∈ items → ListsFit entry) →
    Reads ((readList operator value).map combine) (ValidClause operator value)
      fun doc => ClauseHolds doc operator value
  | .array items, hlen, hfit => by
    have hvalid : ValidClause operator (.array items) ↔ _ :=
      validClause_logical_iff (mem_logical_of_combination? hc)
    have hentries := reads_entries operator 128 items (hlen items rfl) (hfit items rfl)
    rw [readList]
    split_ifs with hempty
    · refine .error fun hv => ?_
      obtain ⟨_, h, hne, -⟩ := hvalid.1 hv
      cases h
      exact hne (List.isEmpty_iff.1 hempty)
    · have hne : items ≠ [] := fun h => hempty (by rw [h]; rfl)
      refine (hentries.map combine fun filters => means_combination hc).congr ?_ fun _ => Iff.rfl
      rw [hvalid]
      exact ⟨fun hv => ⟨items, rfl, hne, hv⟩, fun ⟨_, h, _, hv⟩ => by cases h; exact hv⟩
  | .null, _, _ | .bool _, _, _ | .int _, _, _ | .long _, _, _ | .double _, _, _ | .decimal _, _, _
  | .string _, _, _ | .document _, _, _ | .objectId _, _, _ | .date _, _, _
  | .timestamp _ _, _, _ | .binary _ _, _, _ | .regex _ _, _, _ | .javaScript _, _, _
  | .javaScriptWithScope _ _, _, _ | .symbol _, _, _ | .undefined, _, _ | .minKey, _, _
  | .maxKey, _, _ | .dbPointer _ _, _, _ => by
    rw [readList]
    · refine .error fun hv => ?_
      obtain ⟨_, h, -⟩ := (validClause_logical_iff (mem_logical_of_combination? hc)).1 hv
      cases h
    · exact fun _ h => nomatch h

/-- The entries under a logical operator are read as what they say, each for itself. -/
theorem reads_entries (operator : String) (limit : Nat) : ∀ items : List Value,
    items.length ≤ limit → (∀ entry, .document entry ∈ items → ListsFit entry) →
    ReadsEach (readEntries operator limit items)
      (∀ item ∈ items, ∃ entry, item = .document entry ∧ ValidFilter entry)
      (items.map fun item doc => EntryHolds doc item)
  | [], _, _ => by
    rw [readEntries]
    exact ReadsEach.nil.congr (by simp)
  | item :: rest, hlen, hfit => by
    have hlimit : limit ≠ 0 := by
      rw [List.length_cons] at hlen
      omega
    have hentry := reads_entry operator item fun entry he => hfit entry (by simp [he])
    have hrest := reads_entries operator (limit - 1) rest
      (by rw [List.length_cons] at hlen; omega)
      fun entry he => hfit entry (List.mem_cons_of_mem _ he)
    rw [readEntries, if_neg hlimit]
    exact (ReadsEach.cons hentry hrest).congr (by simp)

/-- An entry under a logical operator is read as what its document says. -/
theorem reads_entry (operator : String) : ∀ item : Value,
    (∀ entry, item = .document entry → ListsFit entry) →
    Reads (readEntry operator item) (∃ entry, item = .document entry ∧ ValidFilter entry)
      fun doc => EntryHolds doc item
  | .document fields, hfit => by
    have hclauses := reads_clauses fields (hfit fields rfl)
    rw [readEntry]
    split_ifs with hlen
    · refine .error fun ⟨_, h, hv⟩ => ?_
      cases h
      have := (validFilter_iff.1 hv).1
      rw [maxClauses] at hlen
      omega
    · refine hclauses.allOf.congr ?_ fun doc => ?_
      · rw [maxClauses, Nat.not_lt] at hlen
        exact ⟨fun hv => ⟨fields, rfl, .mk hlen hv⟩, fun ⟨_, h, hv⟩ => by
          cases h
          exact (validFilter_iff.1 hv).2⟩
      · rw [EntryHolds, selects_iff, List.forall_mem_map]
  | .null, _ | .bool _, _ | .int _, _ | .long _, _ | .double _, _ | .decimal _, _ | .string _, _
  | .array _, _ | .objectId _, _ | .date _, _ | .timestamp _ _, _ | .binary _ _, _
  | .regex _ _, _ | .javaScript _, _ | .javaScriptWithScope _ _, _ | .symbol _, _
  | .undefined, _ | .minKey, _ | .maxKey, _ | .dbPointer _ _, _ => by
    rw [readEntry]
    · exact .error fun ⟨_, h, _⟩ => nomatch h
    · exact fun _ h => nomatch h

end

/-! ## The reader of filter documents -/

/-- **Reading keeps the meaning and accepts the grammar.** Where no array under a logical operator
is longer than the reader looks, a document is read exactly when it is a filter document, and the
filter that is read is fulfilled by the documents of which the document's fields hold. -/
theorem ofDocument_reads (filter : Document)
    (fit : ∀ items, HasList filter items → items.length ≤ 128) :
    ((∃ f, ofDocument filter = .ok f) ↔ ValidFilter filter) ∧
      ∀ f, ofDocument filter = .ok f →
        ∀ doc, f.fulfilledBy doc = true ↔ Selects doc filter := by
  have hclauses := (reads_clauses filter fit).allOf
  rw [ofDocument, maxClauses]
  split_ifs with hlen
  · refine ⟨⟨(fun ⟨_, h⟩ => nomatch h), fun hv => ?_⟩, fun _ h => nomatch h⟩
    have := (validFilter_iff.1 hv).1
    omega
  · refine ⟨?_, fun f hf doc => ?_⟩
    · rw [hclauses.accepts, validFilter_iff, and_iff_right (Nat.not_lt.1 hlen)]
    · rw [selects_iff]
      exact (hclauses.means f hf doc).trans List.forall_mem_map

theorem ofDocument_reads_or :
    ∃ f, ofDocument [("$or", .array [.document [("a", .document [("$gt", .int 1)])],
        .document [("b", .string "x")]])] = .ok f ∧
      ∀ doc, f.fulfilledBy doc = true ↔
        Selects doc [("$or", .array [.document [("a", .document [("$gt", .int 1)])],
          .document [("b", .string "x")]])] := by
  refine ⟨or [compare "a" .gt (.int 1), compare "b" .eq (.string "x")], rfl,
    (ofDocument_reads _ fun items h => ?_).2 _ rfl⟩
  cases h with
  | here hm hk =>
    simp only [List.mem_singleton, Prod.mk.injEq, Value.array.injEq] at hm
    rw [hm.2]
    decide
  | inner hm hk he hin =>
    simp only [List.mem_singleton, Prod.mk.injEq, Value.array.injEq] at hm
    rw [hm.2] at he
    simp only [List.mem_cons, Value.document.injEq, List.not_mem_nil, or_false] at he
    rcases he with rfl | rfl <;> cases hin <;> simp_all

end Filter

end DocStore
