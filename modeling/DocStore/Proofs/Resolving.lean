import DocStore.Proofs.Equijoin
import DocStore.Proofs.Reading

/-!
# Which lookups can be run

A configuration is accepted with any path as its foreign field, also with one that is named like an
operator. The queries of a lookup on such a field are no filters, so that it fails on every document
that it makes a query for.

* `Filter.operatorFault` is the fault of a filter document whose field is named like an operator and
  holds no array.
* `Lookup.resolve_ok_iff` is the main statement: when the matches of a document are found, and the
  failure otherwise.
* `Lookup.resolve_fails` is the refutation of the statement without a condition on the field.
-/

namespace DocStore

/-! ## Fields named like operators -/

namespace Value

mutual

theorem isArray_of_mem_leaves : ∀ {v leaf : Value}, leaf ∈ v.leaves → leaf.isArray = false
  | array items, _, h => by
    rw [leaves] at h
    exact isArray_of_mem_leavesItems h
  | null, _, h | bool _, _, h | int _, _, h | long _, _, h | double _, _, h | decimal _, _, h
  | string _, _, h | document _, _, h | objectId _, _, h | date _, _, h | timestamp _ _, _, h
  | binary _ _, _, h | regex _ _, _, h | javaScript _, _, h | javaScriptWithScope _ _, _, h
  | symbol _, _, h | undefined, _, h | minKey, _, h | maxKey, _, h | dbPointer _ _, _, h => by
    rw [leaves, List.mem_singleton] at h
    · subst h
      rfl
    · nofun

theorem isArray_of_mem_leavesItems : ∀ {items : List Value} {leaf : Value},
    leaf ∈ leavesItems items → leaf.isArray = false
  | [], _, h => by simp [leavesItems] at h
  | v :: rest, _, h => by
    rw [leavesItems, List.mem_append] at h
    exact h.elim isArray_of_mem_leaves isArray_of_mem_leavesItems

end

end Value

namespace Filter

/-- What is wrong with a field that is named like an operator and holds no array. -/
def operatorFault (key : String) : QueryFault :=
  if key ∈ ["$and", "$or", "$nor"] then .notArray key else .unknownTopLevel key

/-- A filter document of one field that is named like an operator is refused unless the field holds
an array. -/
theorem ofDocument_singleton_operator {key : String} {value : Value}
    (hk : isOperatorName key = true) (hv : value.isArray = false) :
    ofDocument [(key, value)] = .error (operatorFault key) := by
  rw [ofDocument, if_neg (by simp [maxClauses]), readClauses, operatorFault]
  cases hc : combination? key with
  | some combine =>
    have hlist : readList key value = .error (.notArray key) := by
      cases value with
      | array items => cases hv
      | _ => rfl
    rw [if_pos (mem_logical_of_combination? hc), hlist]
    rfl
  | none =>
    rw [if_neg (not_mem_logical_of_combination? hc), if_pos hk]
    rfl

end Filter

/-- The query of a value on a field that is named like an operator is refused. -/
theorem Lookup.ofDocument_equalityFilter_operator {σ : Type} (l : Lookup σ) {value : Value}
    (hk : isOperatorName l.foreignField = true) (hv : value.isArray = false) :
    Filter.ofDocument (l.equalityFilter value) = .error (Filter.operatorFault l.foreignField) := by
  unfold equalityFilter
  split
  · split <;> exact Filter.ofDocument_singleton_operator hk rfl
  · exact Filter.ofDocument_singleton_operator hk hv

/-! ## Lookups on such fields -/

namespace Join

/-- A lookup on a field that is named like an operator fails with the first query that it makes. -/
theorem found_result_operator (j : Join) (store : Contents)
    (hk : isOperatorName j.foreignField = true) {leaves : List Value}
    (hleaves : ∀ leaf ∈ leaves, leaf.isArray = false) (hne : leaves ≠ []) :
    (j.found store leaves).result = .error (.query (Filter.operatorFault j.foreignField)) := by
  obtain ⟨leaf, rest, rfl⟩ := List.exists_cons_of_ne_nil hne
  have hanswer : answer (store j.target) (j.query leaf).filter =
      .error (.query (Filter.operatorFault j.foreignField)) := by
    have hquery := Lookup.ofDocument_equalityFilter_operator (j.lookup : Lookup Database) hk
      (hleaves leaf (List.mem_cons_self ..))
    rw [answer, query, hquery]
    rfl
  rw [found, Outcome.result_bind, hanswer]
  rfl

theorem found_ok_iff (j : Join) (store : Contents) {leaves : List Value}
    (hleaves : ∀ leaf ∈ leaves, leaf.isArray = false) :
    (∃ found, (j.found store leaves).result = .ok found) ↔
      isOperatorName j.foreignField = false ∨ leaves = [] := by
  constructor
  · rintro ⟨found, hfound⟩
    by_contra hno
    push Not at hno
    rw [j.found_result_operator store (by simpa using hno.1) hleaves hno.2] at hfound
    cases hfound
  · rintro (hp | rfl)
    · exact ⟨_, j.found_result store hp leaves⟩
    · exact ⟨[], rfl⟩

end Join

/-- **When the matches of a document are found.** A lookup that is built on a database from a
configuration that it accepts finds the matches of a document, whatever the collections hold by
then, unless its foreign field is named like an operator and the document asks for a query. Then the
name of the field is the fault. -/
theorem Lookup.resolve_ok_iff {configuration : Document} {db db' : Database} {l : Lookup Database}
    (built : (build Database.resolver configuration).on db = (.ok l, db')) (s : Database)
    (doc : Document) :
    ((∃ found, ((l.resolve doc).on s).1 = .ok found) ↔
        isOperatorName l.foreignField = false ∨
          ((doc.gather? l.localField).getD .null).leaves = []) ∧
      (isOperatorName l.foreignField = true →
        ((doc.gather? l.localField).getD .null).leaves ≠ [] →
          ((l.resolve doc).on s).1 = .error (.query (Filter.operatorFault l.foreignField))) := by
  obtain ⟨j, rfl, -⟩ := build_eq_ok built
  have hleaves : ∀ leaf ∈ ((doc.gather? j.localField).getD .null).leaves, leaf.isArray = false :=
    fun _ => Value.isArray_of_mem_leaves
  obtain ⟨t, ht, -⟩ := j.resolve_comesTo doc s
  have hresult : ((j.lookup.resolve doc).on s).1 =
      (j.found (contents s) ((doc.gather? j.localField).getD .null).leaves).result :=
    congrArg Prod.fst ht
  rw [hresult]
  exact ⟨j.found_ok_iff _ hleaves, fun hk => j.found_result_operator _ hk hleaves⟩

/-- A foreign field that is named like an operator: a document whose local field is the empty array
has its matches found, one whose local field is a text has not. -/
theorem Lookup.resolve_ok_iff_by :
    ∃ l db', (build Database.resolver [("from", .string "orders"), ("localField", .string "name"),
        ("foreignField", .string "$by"), ("as", .string "orders")]).on (Database.empty "shop") =
          (.ok l, db') ∧
      (∃ found, ((l.resolve [("name", .array [])]).on db').1 = .ok found) ∧
      ((l.resolve [("name", .string "a")]).on db').1 =
        .error (.query (.unknownTopLevel "$by")) := by
  have built : (build Database.resolver [("from", .string "orders"), ("localField", .string "name"),
      ("foreignField", .string "$by"), ("as", .string "orders")]).on (Database.empty "shop") =
      (.ok (⟨"orders", "name", "$by", "orders", ⟨0⟩⟩ : Join).lookup, _) := rfl
  exact ⟨_, _, built, (resolve_ok_iff built _ _).1.2 (.inr rfl),
    (resolve_ok_iff built _ _).2 (by decide) (by decide)⟩

/-- Not every lookup that is built finds the matches of every document: a foreign field that is
named like an operator is accepted. -/
theorem Lookup.resolve_fails :
    ¬ ∀ (db db' : Database) (configuration : Document) (l : Lookup Database),
        (build Database.resolver configuration).on db = (.ok l, db') →
          ∀ doc, ∃ found, ((l.resolve doc).on db').1 = .ok found := by
  intro h
  obtain ⟨found, hfound⟩ := h (Database.empty "shop") _ [("from", .string "orders"),
    ("localField", .string "name"), ("foreignField", .string "$by"), ("as", .string "orders")]
    (⟨"orders", "name", "$by", "orders", ⟨0⟩⟩ : Join).lookup rfl []
  cases hfound

end DocStore
