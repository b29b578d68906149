import Mathlib.Data.List.Perm.Subperm
import DocStore.Proofs.Rewording
import DocStore.Proofs.TextOrder

/-!
# The shape of filters

A filter may be any tree of combinations, negations and tests. The filters that are read from
documents are trees of a certain shape, in which nothing is too large for the evaluator and a
negation is about one path.

* `Filter.OccursIn` finds the filters in a filter; `Filter.WellFormed` is what is asked of them.
* `Filter.Shaped` is a grammar of what filter documents are read as, with `Filter.OnPath` for
  documents of operators. What occurs in a filter of the grammar is of the grammar again, and so
  such a filter is well-formed (`Filter.Shaped.wellFormed`).
* Each reader answers with filters of the grammar: `onPath_of_readTest`, `onPath_of_readNegation`,
  `shaped_of_readPath`, `shaped_of_readEntry`. The reader does not limit the length of a document of
  operators; there are ten operators, and each is named once (`length_le_of_validOperators`).
* `Filter.ofDocument_wellFormed` is the main statement. It is about documents that name no field
  twice, and those that are read from a text are such (`Json.uniqueKeys_toValue`), so that
  `Filter.wellFormed_of_ofText` is about all texts.
-/

namespace DocStore

namespace Filter

/-! ## Well-formed filters -/

/-- The filters that a combination or a negation is made of. -/
def parts : Filter → List Filter
  | and filters | or filters | nor filters => filters
  | not filter => [filter]
  | _ => []

/-- The path that a test looks at. -/
def path? : Filter → Option String
  | presence path _ | oneOf path _ | noneOf path _ | compare path _ _ => some path
  | _ => none

/-- A filter occurs in another at some depth, or is the whole of it. -/
inductive OccursIn (f : Filter) : Filter → Prop
  | whole : OccursIn f f
  | part {g h : Filter} : g ∈ h.parts → OccursIn f g → OccursIn f h

/-- How many filters a combination may be of: one or more, and no more than 128. -/
def Sized (filters : List Filter) : Prop := 1 ≤ filters.length ∧ filters.length ≤ 128

/-- What the evaluator may rely on in a filter, at every depth. -/
structure WellFormed (f : Filter) : Prop where
  /-- The combinations are of 1 to 128 filters. -/
  sizes : ∀ filters,
    (and filters).OccursIn f ∨ (or filters).OccursIn f ∨ (nor filters).OccursIn f → Sized filters
  /-- A membership test has at most 1000 values. -/
  sets : ∀ path values, (oneOf path values).OccursIn f ∨ (noneOf path values).OccursIn f →
    values.length ≤ 1000
  /-- No test looks at a path that is named like an operator. -/
  paths : ∀ (g : Filter) (path : String), g.OccursIn f → g.path? = some path →
    isOperatorName path = false
  /-- In a negation there are tests of one path, their negations and their conjunctions. -/
  negations : ∀ g, (not g).OccursIn f → ∃ path, ∀ h, h.OccursIn g →
    h.path? = some path ∨ (∃ inner, h = not inner) ∨ ∃ filters, h = and filters

/-! ## The grammar -/

/-- The filters that operators on a path make. -/
inductive OnPath (path : String) : Filter → Prop
  | presence (expected : Bool) : OnPath path (.presence path expected)
  | oneOf {values : List Value} : values.length ≤ 1000 → OnPath path (.oneOf path values)
  | noneOf {values : List Value} : values.length ≤ 1000 → OnPath path (.noneOf path values)
  | compare (op : Comparison) (value : Value) : OnPath path (.compare path op value)
  | not {f : Filter} : OnPath path f → OnPath path (.not f)
  | and {filters : List Filter} : Sized filters → (∀ f ∈ filters, OnPath path f) →
    OnPath path (.and filters)

/-- The filters that filter documents make. -/
inductive Shaped : Filter → Prop
  | always : Shaped .always
  | onPath {path : String} {f : Filter} : isOperatorName path = false → OnPath path f → Shaped f
  | and {filters : List Filter} : Sized filters → (∀ f ∈ filters, Shaped f) → Shaped (.and filters)
  | or {filters : List Filter} : Sized filters → (∀ f ∈ filters, Shaped f) → Shaped (.or filters)
  | nor {filters : List Filter} : Sized filters → (∀ f ∈ filters, Shaped f) → Shaped (.nor filters)

namespace OnPath

variable {path : String} {f g : Filter}

theorem part (h : OnPath path f) (hg : g ∈ f.parts) : OnPath path g := by
  cases h with
  | presence | oneOf | noneOf | compare => cases hg
  | not hf => rwa [List.mem_singleton.1 hg]
  | and _ hfilters => exact hfilters g hg

theorem occursIn (h : OnPath path f) (hg : g.OccursIn f) : OnPath path g := by
  induction hg with
  | whole => exact h
  | part hmem _ ih => exact ih (h.part hmem)

theorem eq_of_path? {other : String} (h : OnPath path f) (hf : f.path? = some other) :
    other = path := by
  cases h <;> cases hf <;> rfl

/-- On one path there are its tests, negations and conjunctions. -/
theorem path?_or (h : OnPath path f) :
    f.path? = some path ∨ (∃ inner, f = .not inner) ∨ ∃ filters, f = .and filters := by
  cases h with
  | presence | oneOf | noneOf | compare => exact .inl rfl
  | not _ => exact .inr (.inl ⟨_, rfl⟩)
  | and _ _ => exact .inr (.inr ⟨_, rfl⟩)

end OnPath

namespace Shaped

variable {f g : Filter}

theorem part (h : Shaped f) (hg : g ∈ f.parts) : Shaped g := by
  cases h with
  | always => cases hg
  | onPath hp hf => exact .onPath hp (hf.part hg)
  | and _ hfilters | or _ hfilters | nor _ hfilters => exact hfilters g hg

theorem occursIn (h : Shaped f) (hg : g.OccursIn f) : Shaped g := by
  induction hg with
  | whole => exact h
  | part hmem _ ih => exact ih (h.part hmem)

/-- A filter of the grammar is well-formed, since all that occurs in it is of the grammar. -/
theorem wellFormed (h : Shaped f) : f.WellFormed where
  sizes filters hin := by
    rcases hin with hin | hin | hin
    · cases h.occursIn hin with
      | and hsize _ => exact hsize
      | onPath _ hp =>
        cases hp with
        | and hsize _ => exact hsize
    · cases h.occursIn hin with
      | or hsize _ => exact hsize
      | onPath _ hp => cases hp
    · cases h.occursIn hin with
      | nor hsize _ => exact hsize
      | onPath _ hp => cases hp
  sets path values hin := by
    rcases hin with hin | hin
    · cases h.occursIn hin with
      | onPath _ hp =>
        cases hp with
        | oneOf hsize => exact hsize
    · cases h.occursIn hin with
      | onPath _ hp =>
        cases hp with
        | noneOf hsize => exact hsize
  paths g path hin hpath := by
    cases h.occursIn hin with
    | onPath hp hg =>
      rw [hg.eq_of_path? hpath]
      exact hp
    | always | and _ _ | or _ _ | nor _ _ => cases hpath
  negations g hin := by
    cases h.occursIn hin with
    | onPath _ hp =>
      cases hp with
      | not hg => exact ⟨_, fun inner hinner => (hg.occursIn hinner).path?_or⟩

end Shaped

/-! ## Operators on a path -/

/-- What holds of clauses and of their conjunction holds of what they are put together to. -/
theorem allOf_of_forall {p : Filter → Prop} {clauses : List Filter} (each : ∀ f ∈ clauses, p f)
    (none : clauses = [] → p always) (conjunction : clauses ≠ [] → p (and clauses)) :
    p (allOf clauses) := by
  match clauses with
  | [] => exact none rfl
  | [clause] => exact each clause (List.mem_singleton_self _)
  | f :: g :: rest => exact conjunction (List.cons_ne_nil _ _)

theorem onPath_of_readSet {path operator : String} {operand : Value}
    {combine : List Value → Filter} {f : Filter}
    (hcombine : ∀ values, values.length ≤ 1000 → OnPath path (combine values))
    (hread : (readSet operator operand).map combine = .ok f) : OnPath path f := by
  obtain ⟨values, hvalues, rfl⟩ := exists_of_map_eq_ok hread
  apply hcombine
  rcases readSet_cases operator operand with ⟨all, -, hall⟩ | ⟨-, hfault⟩
  · rw [hall] at hvalues
    obtain rfl := Except.ok.inj hvalues
    exact List.length_take_le _ _
  · rw [hfault] at hvalues
    cases hvalues

theorem onPath_of_readTest {path operator : String} {operand : Value} {f : Filter}
    (hread : readTest path operator operand = .ok f) : OnPath path f := by
  unfold readTest at hread
  split at hread
  · cases hread
    exact .compare _ _
  · split_ifs at hread
    · exact onPath_of_readSet (fun _ => .oneOf) hread
    · exact onPath_of_readSet (fun _ => .noneOf) hread
    · cases hread
      exact .presence _

/-- There are ten operators. -/
theorem mem_of_validOperator {operator : String} {operand : Value}
    (h : ValidOperator operator operand) :
    operator ∈ ["$eq", "$ne", "$gt", "$gte", "$lt", "$lte", "$exists", "$in", "$nin", "$not"] := by
  rcases validOperator_iff.1 h with h | ⟨h, -⟩ | ⟨rfl, -⟩
  · exact List.mem_append_left ["$in", "$nin", "$not"] h
  · simp only [List.mem_cons, List.not_mem_nil, or_false] at h
    rcases h with rfl | rfl <;> decide
  · decide

/-- A document of operators that names none of them twice has at most ten fields. -/
theorem length_le_of_validOperators {fields : Document} (hkeys : fields.keys.Nodup)
    (hvalid : ∀ field ∈ fields, ValidOperator field.1 field.2) : fields.length ≤ 10 := by
  have hsub : fields.keys ⊆
      ["$eq", "$ne", "$gt", "$gte", "$lt", "$lte", "$exists", "$in", "$nin", "$not"] := by
    intro operator hmem
    obtain ⟨field, hfield, rfl⟩ := List.mem_map.1 hmem
    exact mem_of_validOperator (hvalid field hfield)
  simpa [Document.keys] using (hkeys.subperm hsub).length_le

/-- The clauses of a document of operators are put together to a filter on the path. -/
theorem onPath_of_readOperators {path : String} {fields : Document} {clauses : List Filter}
    (hstarts : fields.startsWithOperator = true) (hkeys : fields.keys.Nodup)
    (negations : ∀ field ∈ fields, ∀ f, readNegation path field.2 = .ok f → OnPath path f)
    (hread : fields.mapM (readOperator path) = .ok clauses) : OnPath path (allOf clauses) := by
  have heach : ∀ f ∈ clauses, OnPath path f := by
    intro f hf
    obtain ⟨⟨operator, operand⟩, hfield, hclause⟩ := (mem_of_mapM_eq_ok hread).1 hf
    rw [readOperator] at hclause
    split_ifs at hclause
    · exact negations _ hfield f hclause
    · exact onPath_of_readTest hclause
  have hvalid : ∀ field ∈ fields, ValidOperator field.1 field.2 :=
    (reads_operators path fields).accepts.1 ⟨clauses, (readOperators_eq path fields).trans hread⟩
  have hten : fields.length ≤ 10 := length_le_of_validOperators hkeys hvalid
  have hlength : fields.length = clauses.length := (mapM_eq_ok_iff.1 hread).length_eq
  -- the document has a first field, and so there is no filter of every document under a negation
  have hne : clauses ≠ [] := by
    rintro rfl
    rw [List.length_eq_zero_iff.1 hlength] at hstarts
    cases hstarts
  refine allOf_of_forall heach (fun hnil => absurd hnil hne) fun _ => .and ⟨?_, ?_⟩ heach
  · exact List.length_pos_of_ne_nil hne
  · omega

/-- A negation is read of a document of operators. -/
theorem exists_of_readNegation_eq_ok {path : String} {operand : Value} {f : Filter}
    (hread : readNegation path operand = .ok f) : ∃ (fields : Document) (clauses : List Filter),
      operand = .document fields ∧ fields.startsWithOperator = true ∧
        fields.mapM (readOperator path) = .ok clauses ∧ f = not (allOf clauses) := by
  by_cases hdoc : ∃ fields, operand = .document fields
  · obtain ⟨fields, rfl⟩ := hdoc
    by_cases hstarts : Document.startsWithOperator fields = true
    · rw [readNegation_document hstarts] at hread
      obtain ⟨clauses, hclauses, rfl⟩ := exists_of_map_eq_ok hread
      exact ⟨fields, clauses, rfl, hstarts, hclauses, rfl⟩
    · rw [readNegation, if_neg hstarts] at hread
      cases hread
  · rw [readNegation_of_ne (not_exists.1 hdoc)] at hread
    cases hread

theorem onPath_of_readNegation {path : String} {operand : Value} {f : Filter}
    (unique : operand.uniqueKeys = true) (hread : readNegation path operand = .ok f) :
    OnPath path f := by
  induction operand using Value.induction generalizing f with
  | atom v hatom =>
    obtain ⟨fields, _, rfl, -⟩ := exists_of_readNegation_eq_ok hread
    cases hatom
  | array _ _ | scope _ _ _ =>
    obtain ⟨fields, _, h, -⟩ := exists_of_readNegation_eq_ok hread
    cases h
  | document fields ih =>
    obtain ⟨_, clauses, ⟨⟩, hstarts, hclauses, rfl⟩ := exists_of_readNegation_eq_ok hread
    rw [Value.uniqueKeys, Value.uniqueKeysFields_iff] at unique
    refine .not (onPath_of_readOperators hstarts unique.1 ?_ hclauses)
    exact fun field hfield f hf => ih field hfield (unique.2 field hfield) hf

theorem shaped_of_readPath {path : String} {value : Value} {f : Filter}
    (hp : isOperatorName path = false) (unique : value.uniqueKeys = true)
    (hread : readPath path value = .ok f) : Shaped f := by
  apply Shaped.onPath hp
  by_cases hops : ∃ ops : Document, value = .document ops ∧ ops.startsWithOperator = true
  · obtain ⟨fields, rfl, hstarts⟩ := hops
    rw [Value.uniqueKeys, Value.uniqueKeysFields_iff] at unique
    rw [readPath_document hstarts] at hread
    obtain ⟨clauses, hclauses, rfl⟩ := exists_of_map_eq_ok hread
    refine onPath_of_readOperators hstarts unique.1 ?_ hclauses
    exact fun field hfield f hf => onPath_of_readNegation (unique.2 field hfield) hf
  · rw [readPath_literal path hops] at hread
    cases hread
    exact .compare _ _

/-! ## Filter documents -/

/-- What the list under a logical operator is read as. -/
structure ListShaped (filters : List Filter) : Prop where
  size : Sized filters
  each : ∀ f ∈ filters, Shaped f

theorem ListShaped.combination {key : String} {combine : List Filter → Filter}
    {filters : List Filter} (h : ListShaped filters) (hc : combination? key = some combine) :
    Shaped (combine filters) := by
  rcases combination?_eq_some_iff.1 hc with ⟨-, rfl⟩ | ⟨-, rfl⟩ | ⟨-, rfl⟩
  · exact .and h.size h.each
  · exact .or h.size h.each
  · exact .nor h.size h.each

/-- The list under a logical operator is an array with entries, of which at most 128 are read. -/
theorem exists_of_readList_eq_ok {operator : String} {v : Value} {filters : List Filter}
    (hread : readList operator v = .ok filters) : ∃ items, v = .array items ∧ items ≠ [] ∧
      (items.take 128).mapM (readEntry operator) = .ok filters := by
  by_cases harray : ∃ items, v = .array items
  · obtain ⟨items, rfl⟩ := harray
    by_cases hne : items = []
    · subst hne
      cases hread
    · exact ⟨items, rfl, hne, (readList_array operator hne).symm.trans hread⟩
  · rw [readList_of_ne operator (not_exists.1 harray)] at hread
    cases hread

/-- An entry is a filter document. -/
theorem exists_of_readEntry_eq_ok {operator : String} {v : Value} {f : Filter}
    (hread : readEntry operator v = .ok f) :
    ∃ fields, v = .document fields ∧ ofDocument fields = .ok f := by
  by_cases hdoc : ∃ fields, v = .document fields
  · obtain ⟨fields, rfl⟩ := hdoc
    exact ⟨fields, rfl, (readEntry_document operator fields).symm.trans hread⟩
  · rw [readEntry_of_ne (not_exists.1 hdoc)] at hread
    cases hread

theorem listShaped_of_readList {operator : String} {v : Value} {filters : List Filter}
    (entries : ∀ items, v = .array items → ∀ item ∈ items, ∀ operator f,
      readEntry operator item = .ok f → Shaped f)
    (hread : readList operator v = .ok filters) : ListShaped filters := by
  obtain ⟨items, rfl, hne, hentries⟩ := exists_of_readList_eq_ok hread
  have hlength := (mapM_eq_ok_iff.1 hentries).length_eq
  have hpos : 1 ≤ items.length := List.length_pos_of_ne_nil hne
  rw [List.length_take] at hlength
  refine ⟨⟨by omega, by omega⟩, fun f hf => ?_⟩
  obtain ⟨item, hitem, hone⟩ := (mem_of_mapM_eq_ok hentries).1 hf
  exact entries items rfl item (List.mem_of_mem_take hitem) operator f hone

theorem shaped_of_readClause {field : String × Value} {f : Filter}
    (unique : field.2.uniqueKeys = true)
    (entries : ∀ items, field.2 = .array items → ∀ item ∈ items, ∀ operator f,
      readEntry operator item = .ok f → Shaped f)
    (hread : readClause field = .ok f) : Shaped f := by
  rw [readClause] at hread
  cases hc : combination? field.1 with
  | some combine =>
    rw [hc] at hread
    obtain ⟨filters, hfilters, rfl⟩ := exists_of_map_eq_ok hread
    exact (listShaped_of_readList entries hfilters).combination hc
  | none =>
    rw [hc] at hread
    split_ifs at hread with hp
    exact shaped_of_readPath (by simpa using hp) unique hread

theorem shaped_of_clauses {fields : Document} {f : Filter}
    (clauses : ∀ field ∈ fields, ∀ f, readClause field = .ok f → Shaped f)
    (hread : ofDocument fields = .ok f) : Shaped f := by
  rw [ofDocument] at hread
  split_ifs at hread with hlong
  rw [readClauses_eq] at hread
  obtain ⟨filters, hfilters, rfl⟩ := exists_of_map_eq_ok hread
  have hlength : fields.length = filters.length := (mapM_eq_ok_iff.1 hfilters).length_eq
  have heach : ∀ f ∈ filters, Shaped f := by
    intro f hf
    obtain ⟨field, hfield, hone⟩ := (mem_of_mapM_eq_ok hfilters).1 hf
    exact clauses field hfield f hone
  refine allOf_of_forall heach (fun _ => .always) fun hne => .and ⟨?_, ?_⟩ heach
  · exact List.length_pos_of_ne_nil hne
  · rw [← hlength]
    exact Nat.not_lt.1 hlong

/-- The induction goes through two levels at once: a document is an entry, and its fields are read
through the entries of the arrays in it. -/
theorem shaped_of_readEntry (v : Value) (unique : v.uniqueKeys = true) :
    (∀ operator f, readEntry operator v = .ok f → Shaped f) ∧
      ∀ items, v = .array items → ∀ item ∈ items, ∀ operator f,
        readEntry operator item = .ok f → Shaped f := by
  induction v using Value.induction with
  | atom v hatom =>
    refine ⟨fun operator f hread => ?_, fun items e => ?_⟩
    · obtain ⟨fields, rfl, -⟩ := exists_of_readEntry_eq_ok hread
      cases hatom
    · subst e
      cases hatom
  | scope code fields _ =>
    refine ⟨fun operator f hread => ?_, fun items e => ?_⟩
    · obtain ⟨_, h, -⟩ := exists_of_readEntry_eq_ok hread
      cases h
    · cases e
  | array items ih =>
    rw [Value.uniqueKeys, Value.uniqueKeysItems_iff] at unique
    refine ⟨fun operator f hread => ?_, ?_⟩
    · obtain ⟨_, h, -⟩ := exists_of_readEntry_eq_ok hread
      cases h
    · rintro _ ⟨⟩ item hitem
      exact (ih item hitem (unique item hitem)).1
  | document fields ih =>
    rw [Value.uniqueKeys, Value.uniqueKeysFields_iff] at unique
    refine ⟨fun operator f hread => ?_, fun items e => ?_⟩
    · obtain ⟨_, ⟨⟩, hdoc⟩ := exists_of_readEntry_eq_ok hread
      refine shaped_of_clauses (fun field hfield f hf => ?_) hdoc
      have hkeys := unique.2 field hfield
      exact shaped_of_readClause hkeys (ih field hfield hkeys).2 hf
    · cases e

theorem shaped_of_ofDocument {filter : Document} {f : Filter}
    (unique : (Value.document filter).uniqueKeys = true) (hread : ofDocument filter = .ok f) :
    Shaped f :=
  (shaped_of_readEntry _ unique).1 "$and" f ((readEntry_document "$and" filter).trans hread)

theorem WellFormed.equalsOneAt_eq {f : Filter} {path : String} {values : List Value}
    (h : f.WellFormed) (hin : (oneOf path values).OccursIn f ∨ (noneOf path values).OccursIn f)
    (doc : Document) : doc.equalsOneAt path values = values.any (doc.equalsAt path) := by
  rw [Document.equalsOneAt, maxSetSize, List.take_of_length_le (h.sets path values hin)]

/-- **What is read is well-formed.** A filter is read from a document in which, at any depth, no
document names a field twice. Then its combinations are of 1 to 128 filters, no test looks at a path
that is named like an operator, a negation has only tests of one path with their negations and
conjunctions in it, and a membership test has at most 1000 values, so that the evaluator, which
looks at no more, looks at all of them. -/
theorem ofDocument_wellFormed {filter : Document} {f : Filter}
    (unique : (Value.document filter).uniqueKeys = true) (hread : ofDocument filter = .ok f) :
    f.WellFormed ∧ ∀ path values,
      (oneOf path values).OccursIn f ∨ (noneOf path values).OccursIn f →
        ∀ doc : Document, doc.equalsOneAt path values = values.any (doc.equalsAt path) := by
  have hf : f.WellFormed := (shaped_of_ofDocument unique hread).wellFormed
  exact ⟨hf, fun path values => hf.equalsOneAt_eq⟩

/-- A membership test in a negation in a negation, beside a disjunction. -/
theorem ofDocument_wellFormed_negation :
    ∃ f, ofDocument [("a", .document [("$not", .document [("$gt", .int 1),
        ("$not", .document [("$in", .array [.int 5, .null])])])]),
        ("$or", .array [.document [("b", .string "x")], .document []])] = .ok f ∧
      f.WellFormed ∧ ∀ doc : Document, doc.equalsOneAt "a" [.int 5, .null] =
        [.int 5, .null].any (doc.equalsAt "a") := by
  have unique : (Value.document [("a", .document [("$not", .document [("$gt", .int 1),
      ("$not", .document [("$in", .array [.int 5, .null])])])]),
      ("$or", .array [.document [("b", .string "x")], .document []])]).uniqueKeys = true := by
    decide
  obtain ⟨hf, hsets⟩ := ofDocument_wellFormed unique rfl
  refine ⟨_, rfl, hf, hsets _ _ (.inl ?_)⟩
  have hinner : (oneOf "a" [.int 5, .null]).OccursIn (not (oneOf "a" [.int 5, .null])) :=
    .part (List.mem_singleton_self _) .whole
  have hand : (oneOf "a" [.int 5, .null]).OccursIn
      (and [compare "a" .gt (.int 1), not (oneOf "a" [.int 5, .null])]) :=
    .part (List.mem_cons_of_mem _ (List.mem_singleton_self _)) hinner
  exact .part List.mem_cons_self (.part (List.mem_singleton_self _) hand)

end Filter

/-! ## Filters from texts -/

namespace Json

/-- An object is read as a document that names no field twice, even if it repeats a name itself. -/
theorem uniqueKeys_object {members : List (String × Json)}
    (h : ∀ member ∈ members, member.2.toValue.uniqueKeys = true) :
    (toValue (.object members)).uniqueKeys = true := by
  rw [toValue, Value.uniqueKeys, Value.uniqueKeysFields_iff]
  refine ⟨(Catalog.pairwise_names_ofPairs _).imp ne_of_lt, fun field hfield => ?_⟩
  have hmem := Catalog.mem_of_mem_ofPairs hfield
  rw [toFields_eq, List.mem_map] at hmem
  obtain ⟨member, hmember, rfl⟩ := hmem
  exact h member hmember

mutual

theorem uniqueKeys_toValue : ∀ json : Json, json.toValue.uniqueKeys = true
  | null | bool _ | real _ | string _ => rfl
  | integer n => by
    rw [toValue, ofInteger]
    split_ifs <;> rfl
  | array items => by
    rw [toValue, Value.uniqueKeys, Value.uniqueKeysItems_iff, toValues_eq, List.forall_mem_map]
    exact uniqueKeys_items items
  | object members => uniqueKeys_object (uniqueKeys_members members)

theorem uniqueKeys_items : ∀ items : List Json, ∀ item ∈ items, item.toValue.uniqueKeys = true
  | [] => nofun
  | item :: rest => List.forall_mem_cons.2 ⟨uniqueKeys_toValue item, uniqueKeys_items rest⟩

theorem uniqueKeys_members : ∀ members : List (String × Json), ∀ member ∈ members,
    member.2.toValue.uniqueKeys = true
  | [] => nofun
  | (_, value) :: rest => List.forall_mem_cons.2 ⟨uniqueKeys_toValue value, uniqueKeys_members rest⟩

end

end Json

namespace Filter

/-- A filter that is read from a text is read from the document that a JSON value is. -/
theorem exists_of_ofText_eq_ok {text : String} {f : Filter} (hread : ofText text = .ok f) :
    ∃ (json : Json) (doc : Document), json.toValue = .document doc ∧ ofDocument doc = .ok f := by
  unfold ofText at hread
  split at hread
  · rename_i json _
    cases hjson : ofJson json with
    | error fault =>
      rw [hjson] at hread
      cases hread
    | ok g =>
      rw [hjson] at hread
      cases hread
      unfold ofJson at hjson
      split at hjson
      · rename_i doc hdoc
        exact ⟨json, doc, hdoc, hjson⟩
      · cases hjson
  · cases hread

/-- **What is read from a text is well-formed**, whatever names its objects repeat. -/
theorem wellFormed_of_ofText {text : String} {f : Filter} (hread : ofText text = .ok f) :
    f.WellFormed := by
  obtain ⟨json, doc, hdoc, hof⟩ := exists_of_ofText_eq_ok hread
  have unique : (Value.document doc).uniqueKeys = true := hdoc ▸ json.uniqueKeys_toValue
  exact (shaped_of_ofDocument unique hof).wellFormed

end Filter

end DocStore
