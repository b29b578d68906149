import DocStore.Proofs.Gathering
import DocStore.Proofs.Identity

/-!
# Documents that join to themselves

A lookup in the collection of a document, with one path on both sides. The two sides read the path
in two ways: where it meets an array, the foreign side may also take an element by its index, which
the local side never does. A document with one value at the path therefore finds itself where names
of fields alone lead to the value.

* `Value.ReachesByName` says so of segments and values; `Value.Reaches.byName` is about segments of
  which none is an index.
* `Value.ReachesByName.gathered` and `Value.exists_reachesByName` are about the local side: what it
  reads is what names lead to.
* `Lookup.resolve_self` is the main statement; `Lookup.resolve_self_fails` is the refutation of the
  statement for every path.
-/

namespace DocStore

namespace Value

/-! ## Values that names lead to -/

/-- `ReachesByName v segments w` says that the segments lead from `v` to `w` by the names of fields,
none as the index of an element. -/
inductive ReachesByName : Value → List String → Value → Prop
  | here (v : Value) : ReachesByName v [] v
  | field {fields : Document} {segment : String} {rest : List String} {v w : Value} :
    fields.get? segment = some v → ReachesByName v rest w →
      ReachesByName (document fields) (segment :: rest) w
  | member {items : List Value} {fields : Document} {segment : String} {rest : List String}
    {w : Value} :
    document fields ∈ items → ReachesByName (document fields) (segment :: rest) w →
      ReachesByName (array items) (segment :: rest) w

variable {v w : Value} {segments : List String}

theorem ReachesByName.reaches (h : ReachesByName v segments w) : Reaches v segments w := by
  induction h with
  | here v => exact .here v
  | field hv _ ih => exact .field hv ih
  | member hf _ ih => exact .member hf ih

theorem Reaches.byName (h : Reaches v segments w)
    (plain : ∀ segment ∈ segments, Path.index? segment = none) : ReachesByName v segments w := by
  induction h with
  | here v => exact .here v
  | field hv _ ih => exact .field hv (ih (List.forall_mem_cons.1 plain).2)
  | element hi =>
    rw [(List.forall_mem_cons.1 plain).1] at hi
    cases hi
  | member hf _ ih => exact .member hf (ih plain)

/-- In a document the first segment is a name, also where it is an index. -/
theorem Reaches.byName_document {fields : Document} (h : Reaches (document fields) segments w)
    (plain : ∀ segment ∈ segments.tail, Path.index? segment = none) :
    ReachesByName (document fields) segments w := by
  cases h with
  | here => exact .here _
  | field hv hrest => exact .field hv (hrest.byName plain)

/-! ## What is gathered of them -/

theorem mem_gatherItems_iff {items : List Value} {segment : String} {rest : List String}
    {g : Value} :
    g ∈ gatherItems items segment rest ↔
      ∃ fields, document fields ∈ items ∧ gatherField? fields segment rest = some g := by
  induction items with
  | nil => simp [gatherItems]
  | cons v more ih => cases v <;> simp [gatherItems, ih, or_and_right, exists_or]

theorem gather?_array_eq_some_iff {items : List Value} {segment : String} {rest : List String}
    {g : Value} :
    gather? (array items) (segment :: rest) = some g ↔
      gatherItems items segment rest ≠ [] ∧ array (gatherItems items segment rest) = g := by
  rw [gather?]
  split <;> simp_all

/-- What names lead to is gathered, with all its leaves. -/
theorem ReachesByName.gathered (h : ReachesByName v segments w) :
    ∃ g, gather? v segments = some g ∧ ∀ leaf ∈ w.leaves, leaf ∈ g.leaves := by
  induction h with
  | here v => exact ⟨v, by rw [gather?], fun _ hleaf => hleaf⟩
  | field hv _ ih =>
    obtain ⟨g, hg, hleaves⟩ := ih
    exact ⟨g, by rw [gather?, gatherField?_eq, hv, Option.bind_some, hg], hleaves⟩
  | @member items fields segment rest w hf _ ih =>
    obtain ⟨g, hg, hleaves⟩ := ih
    rw [gather?] at hg
    have hmem : g ∈ gatherItems items segment rest := mem_gatherItems_iff.2 ⟨fields, hf, hg⟩
    refine ⟨_, gather?_array_eq_some_iff.2 ⟨List.ne_nil_of_mem hmem, rfl⟩, fun leaf hleaf => ?_⟩
    rw [leaves, leavesItems_eq]
    exact List.mem_flatMap.2 ⟨g, hmem, hleaves leaf hleaf⟩

/-- Where something is gathered, names lead to a value. -/
theorem exists_reachesByName {g : Value} (h : gather? v segments = some g) :
    ∃ w, ReachesByName v segments w := by
  induction v using Value.induction generalizing segments g with
  | atom v hatom =>
    cases segments with
    | nil => exact ⟨v, .here v⟩
    | cons segment rest => cases v <;> simp_all [gather?, isAtom]
  | scope code fields _ =>
    cases segments with
    | nil => exact ⟨_, .here _⟩
    | cons segment rest => simp [gather?] at h
  | document fields ih =>
    cases segments with
    | nil => exact ⟨_, .here _⟩
    | cons segment rest =>
      rw [gather?, gatherField?_eq, Option.bind_eq_some_iff] at h
      obtain ⟨u, hu, hg⟩ := h
      obtain ⟨w, hw⟩ := ih (segment, u) (Document.mem_of_get? hu) hg
      exact ⟨w, .field hu hw⟩
  | array items ih =>
    cases segments with
    | nil => exact ⟨_, .here _⟩
    | cons segment rest =>
      obtain ⟨found, hfound⟩ := List.exists_mem_of_ne_nil _ (gather?_array_eq_some_iff.1 h).1
      obtain ⟨fields, hf, hg⟩ := mem_gatherItems_iff.1 hfound
      have hread : gather? (document fields) (segment :: rest) = some found := by rw [gather?, hg]
      obtain ⟨w, hw⟩ := ih _ hf hread
      exact ⟨w, .member hf hw⟩

end Value

/-! ## One value at a path -/

namespace Document

variable {doc : Document} {path : String} {v : Value}

/-- Of a document with one value at a path, either that value is among the leaves that the local
side reads, or the local side reads nothing. -/
theorem gather?_of_one (one : doc.reached path = [v]) (single : v.isArray = false) :
    (Value.ReachesByName (.document doc) (Path.segments path) v ∧
        ∃ g, doc.gather? path = some g ∧ v ∈ g.leaves) ∨
      ¬ Value.ReachesByName (.document doc) (Path.segments path) v ∧ doc.gather? path = none := by
  obtain ⟨hne, hbytes, hsegments⟩ := within_of_mem_reached (one ▸ List.mem_singleton_self v)
  rw [gather?_of_within hne hsegments]
  rw [reached_of_within hne hbytes hsegments] at one
  by_cases hname : Value.ReachesByName (.document doc) (Path.segments path) v
  · obtain ⟨g, hg, hleaves⟩ := hname.gathered
    refine .inl ⟨hname, g, hg, hleaves v ?_⟩
    cases v with
    | array items => cases single
    | _ => exact List.mem_singleton_self _
  · refine .inr ⟨hname, Option.eq_none_iff_forall_ne_some.2 fun g hg => hname ?_⟩
    obtain ⟨w, hw⟩ := Value.exists_reachesByName hg
    have hreached := Value.mem_reached_iff.2 hw.reaches
    rw [one, List.mem_singleton] at hreached
    exact hreached ▸ hw

/-- With one value at a path that is no array, equality at the path is equality with that value. -/
theorem fulfilledBy_equality_of_one (one : doc.reached path = [v]) (single : v.isArray = false)
    (value : Value) :
    (Filter.equality path value).fulfilledBy doc = true ↔ v.equal value = true := by
  have hleads : ∀ u, doc.Leads path u ↔ u = v := fun u => by
    rw [← mem_reached_iff, one, List.mem_singleton]
  have hwhole : ∀ items, v ≠ .array items := fun items e => by
    rw [e] at single
    cases single
  rw [Filter.equality, Filter.fulfilledBy, comparesAt, equalsAt_iff, EqualTo]
  simp [hleads, hwhole]

end Document

theorem Value.eq_null_of_equal_null {v : Value} (h : v.equal .null = true) : v = .null := by
  cases v <;> simp_all [equal, equalAtoms, number?, identical]

/-! ## Lookups in the own collection -/

theorem mem_joinedWith_iff {stored : List Document} {foreignField : String} {value : Value}
    {doc : Document} :
    doc ∈ joinedWith stored foreignField value ↔ doc ∈ stored ∧
      ∃ leaf ∈ value.leaves, (Filter.equality foreignField leaf).fulfilledBy doc = true := by
  simp only [joinedWith, List.mem_flatMap, List.mem_filter]
  constructor
  · rintro ⟨leaf, hleaf, hdoc, h⟩
    exact ⟨hdoc, leaf, hleaf, h⟩
  · rintro ⟨hdoc, leaf, hleaf, h⟩
    exact ⟨leaf, hleaf, hdoc, h⟩

/-- The matches of a document are those that its local value is joined with. -/
theorem Join.resolve_result (j : Join) (hp : isOperatorName j.foreignField = false) (s : Database)
    (doc : Document) :
    ((j.lookup.resolve doc).on s).1 = .ok (joinedWith (s.collection j.target).documents
      j.foreignField ((doc.gather? j.localField).getD .null)) := by
  obtain ⟨t, ht, -⟩ := j.resolve_comesTo doc s
  exact (congrArg Prod.fst ht).trans (j.found_result _ hp _)

/-- **A document finds itself by name.** A lookup is built on a database with one path on both sides
that is not named like an operator. A document in its collection with one value at the path, no
array and equal to itself, is among its own matches just if names of fields alone lead to the value,
or the value is null. They do where no segment after the first is an index. -/
theorem Lookup.resolve_self {configuration : Document} {db db' : Database} {l : Lookup Database}
    (built : (build Database.resolver configuration).on db = (.ok l, db'))
    (same : l.localField = l.foreignField) (hp : isOperatorName l.foreignField = false) :
    ∃ h, db.Resolved l.source h db' ∧ ∀ (s : Database) (doc : Document) (v : Value),
      doc ∈ (s.collection h).documents → doc.reached l.foreignField = [v] → v.isArray = false →
        v.equal v = true →
          ∃ found, ((l.resolve doc).on s).1 = .ok found ∧
            (doc ∈ found ↔
              Value.ReachesByName (.document doc) (Path.segments l.foreignField) v ∨ v = .null) ∧
            ((∀ segment ∈ (Path.segments l.foreignField).tail, Path.index? segment = none) →
              doc ∈ found) := by
  obtain ⟨j, rfl, hres, -⟩ := build_eq_ok built
  refine ⟨j.target, hres, fun s doc v stored one single self => ⟨_, j.resolve_result hp s doc, ?_⟩⟩
  have hpath : j.localField = j.foreignField := same
  have hone : doc.reached j.foreignField = [v] := one
  have hfound : doc ∈ joinedWith (s.collection j.target).documents j.foreignField
      ((doc.gather? j.localField).getD .null) ↔
        Value.ReachesByName (.document doc) (Path.segments j.foreignField) v ∨ v = .null := by
    have hequality := Document.fulfilledBy_equality_of_one hone single
    rw [mem_joinedWith_iff, and_iff_right stored, hpath]
    simp only [hequality]
    rcases Document.gather?_of_one hone single with ⟨hname, g, hg, hleaf⟩ | ⟨hname, hg⟩
    · rw [hg, Option.getD_some]
      exact iff_of_true ⟨v, hleaf, self⟩ (.inl hname)
    · -- The local side reads nothing, which counts as null.
      have hnull : v.equal .null = true ↔ v = .null :=
        ⟨Value.eq_null_of_equal_null, fun e => e ▸ self⟩
      simp [hg, hname, Value.leaves, hnull]
  refine ⟨hfound, fun plain => hfound.2 (.inl ?_)⟩
  have hleads := Document.mem_reached_iff.1 (hone ▸ List.mem_singleton_self v)
  exact hleads.reaches.byName_document plain

theorem Lookup.resolve_self_orders :
    ∃ (db db' : Database) (l : Lookup Database) (doc : Document) (found : List Document),
      (build Database.resolver [("from", .string "orders"), ("localField", .string "lines.sku"),
          ("foreignField", .string "lines.sku"), ("as", .string "same")]).on db = (.ok l, db') ∧
      doc = [("lines", .array [.null, .document [("sku", .int 5)]])] ∧
      ((l.resolve doc).on db).1 = .ok found ∧ doc ∈ found := by
  have built : (build Database.resolver [("from", .string "orders"),
      ("localField", .string "lines.sku"), ("foreignField", .string "lines.sku"),
      ("as", .string "same")]).on (((Database.empty "shop").register "orders").2.insert ⟨0⟩
        [[("lines", .array [.null, .document [("sku", .int 5)]])]]) =
      (.ok (⟨"orders", "lines.sku", "lines.sku", "same", ⟨0⟩⟩ : Join).lookup, _) := rfl
  have hone :
      Document.reached [("lines", .array [.null, .document [("sku", .int 5)]])] "lines.sku" =
        [.int 5] := by
    have hsegments : Path.segments "lines.sku" = ["lines", "sku"] := rfl
    have hindex : Path.index? "sku" = none := by decide
    rw [Document.reached_of_within (by decide) (by decide) (by decide), hsegments]
    simp [Value.reached, Value.reachedField, Value.reachedItems, hindex]
  obtain ⟨h, ⟨hname, -⟩ | ⟨hnone, -⟩, hself⟩ := resolve_self built rfl (by decide)
  · cases hname
    obtain ⟨found, hfound, -, hmem⟩ :=
      hself (((Database.empty "shop").register "orders").2.insert ⟨0⟩
        [[("lines", .array [.null, .document [("sku", .int 5)]])]]) _ _ (List.mem_singleton_self _)
        hone rfl rfl
    exact ⟨_, _, _, _, found, built, rfl, hfound, hmem (by decide)⟩
  · cases hnone

/-- Not every document finds itself where it has one value: the foreign side takes the element of an
array by its index and the local side reads nothing. -/
theorem Lookup.resolve_self_fails :
    ¬ ∀ (db db' : Database) (configuration : Document) (l : Lookup Database),
        (build Database.resolver configuration).on db = (.ok l, db') →
          l.localField = l.foreignField → isOperatorName l.foreignField = false →
            ∃ h, db.Resolved l.source h db' ∧ ∀ (doc : Document) (v : Value),
              doc ∈ (db'.collection h).documents → doc.reached l.foreignField = [v] →
                v.isArray = false → v.equal v = true →
                  ∃ found, ((l.resolve doc).on db').1 = .ok found ∧ doc ∈ found := by
  intro hfinds
  have hone : Document.reached [("a", .array [.int 5])] "a.0" = [.int 5] := by
    have hsegments : Path.segments "a.0" = ["a", "0"] := rfl
    have hindex : Path.index? "0" = some 0 := by decide
    rw [Document.reached_of_within (by decide) (by decide) (by decide), hsegments]
    simp [Value.reached, Value.reachedField, Value.reachedItems, Value.reachedAt, hindex]
  obtain ⟨h, ⟨hname, -⟩ | ⟨hnone, -⟩, hself⟩ := hfinds
    (((Database.empty "shop").register "orders").2.insert ⟨0⟩ [[("a", .array [.int 5])]]) _
    [("from", .string "orders"), ("localField", .string "a.0"), ("foreignField", .string "a.0"),
      ("as", .string "same")]
    (⟨"orders", "a.0", "a.0", "same", ⟨0⟩⟩ : Join).lookup rfl rfl (by decide)
  · cases hname
    obtain ⟨found, hfound, hmem⟩ := hself _ (.int 5) (List.mem_singleton_self _) hone rfl rfl
    cases hfound
    cases hmem
  · cases hnone

end DocStore
