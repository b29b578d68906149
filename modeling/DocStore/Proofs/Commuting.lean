import Mathlib.Data.Option.NAry
import DocStore.Proofs.Equijoin

/-!
# Lookups that commute

Two lookups, neither of which reads what the other sets, can stand in either order: the same
documents get through both, with the same matches. Only where a document has neither of the two
fields does it show which lookup came first, by the order in which the fields stand at its end.

* `Lookup.matched?` is what a lookup sets; `Lookup.matched?_insert` says that it does not depend on
  a field that the local path does not start with.
* `Document.Swapped` relates what comes of a document in the two orders;
  `Document.insert_swapped` says that setting two fields does so.
* `Lookup.execute_comm` is the main statement.
-/

namespace DocStore

/-! ## Two fields -/

namespace Document

variable {doc : Document} {a b : String}

theorem insert_of_not_mem (value : Value) (h : a ∉ doc.keys) :
    doc.insert a value = doc ++ [(a, value)] := by
  induction doc with
  | nil => rfl
  | cons field rest ih =>
    obtain ⟨k, v⟩ := field
    rw [keys, List.map_cons, List.mem_cons, not_or] at h
    rw [insert, if_neg (Ne.symm h.1), ih h.2, List.cons_append]

/-- A field that is there keeps its place, so that setting it commutes with setting another. -/
theorem insert_comm_of_mem (hne : a ≠ b) (h : a ∈ doc.keys) (x y : Value) :
    (doc.insert a x).insert b y = (doc.insert b y).insert a x := by
  induction doc with
  | nil => cases h
  | cons field rest ih =>
    obtain ⟨k, v⟩ := field
    by_cases ha : k = a
    · subst ha
      simp [insert, hne]
    · have hrest : a ∈ keys rest := (List.mem_cons.1 h).resolve_left (Ne.symm ha)
      by_cases hb : k = b
      · subst hb
        simp [insert, ha]
      · simp only [insert, ha, hb, if_false, ih hrest]

/-- What comes of a document when two fields are set in either order. -/
inductive Swapped (a b : String) (doc : Document) : Document → Document → Prop
  /-- Where one of the fields is there, the order does not show. -/
  | same (out : Document) : a ∈ doc.keys ∨ b ∈ doc.keys → Swapped a b doc out out
  /-- Where neither is there, the fields stand at the end in the order in which they were set. -/
  | swapped (x y : Value) : a ∉ doc.keys → b ∉ doc.keys →
      Swapped a b doc (doc ++ [(a, x), (b, y)]) (doc ++ [(b, y), (a, x)])

theorem insert_swapped (hne : a ≠ b) (doc : Document) (x y : Value) :
    Swapped a b doc ((doc.insert a x).insert b y) ((doc.insert b y).insert a x) := by
  by_cases ha : a ∈ doc.keys
  · rw [insert_comm_of_mem hne ha]
    exact .same _ (.inl ha)
  by_cases hb : b ∈ doc.keys
  · rw [insert_comm_of_mem hne.symm hb]
    exact .same _ (.inr hb)
  have hba : b ∉ (doc.insert a x).keys := by simp [ha, hb, hne.symm]
  have hab : a ∉ (doc.insert b y).keys := by simp [ha, hb, hne]
  rw [insert_of_not_mem y hba, insert_of_not_mem x hab, insert_of_not_mem x ha,
    insert_of_not_mem y hb, List.append_assoc, List.append_assoc]
  exact .swapped x y ha hb

/-- A path does not lead into a field that it does not start with. -/
theorem gather?_insert {path : String} (h : (Path.segments path).head? ≠ some a) (value : Value) :
    (doc.insert a value).gather? path = doc.gather? path := by
  rw [gather?, gather?]
  cases hsegments : Path.segments path with
  | nil => rfl
  | cons first rest =>
    rw [hsegments, List.head?_cons, ne_eq, Option.some.injEq] at h
    simp only [Value.gatherField?_eq, get?_insert_of_ne doc value (Ne.symm h)]

end Document

/-! ## What a lookup sets -/

namespace Lookup

variable {σ : Type}

/-- The array of the matches of a document, where it has any. -/
def matched? (l : Lookup σ) (stored : List Document) (doc : Document) : Option Value :=
  match joinedWith stored l.foreignField ((doc.gather? l.localField).getD .null) with
  | [] => none
  | found => some (.array (found.map .document))

theorem joined_eq (l : Lookup σ) (stored : List Document) (doc : Document) :
    l.joined stored doc = (l.matched? stored doc).map (doc.insert l.resultField) := by
  rw [joined, matched?]
  cases joinedWith stored l.foreignField ((doc.gather? l.localField).getD .null) with
  | nil => rfl
  | cons found rest => exact congrArg some (Document.insert_eq_withField doc _ _).symm

/-- A lookup does not see what is set in a field that its local path does not start with. -/
theorem matched?_insert {l : Lookup σ} {key : String}
    (h : (Path.segments l.localField).head? ≠ some key) (stored : List Document) (doc : Document)
    (value : Value) : l.matched? stored (doc.insert key value) = l.matched? stored doc := by
  rw [matched?, matched?, Document.gather?_insert h]

end Lookup

/-! ## Two lookups -/

namespace Join

/-- Two lookups, the second of which does not read what the first sets, drop a document unless both
find matches, and set what they find in the document as it came. -/
theorem joinedThrough_pair {j k : Join}
    (hk : (Path.segments k.localField).head? ≠ some j.resultField) (store : Contents)
    (doc : Document) :
    joinedThrough [j, k] store doc =
      Option.map₂ (fun x y => (doc.insert j.resultField x).insert k.resultField y)
        ((j.lookup : Lookup Database).matched? (store j.target) doc)
        ((k.lookup : Lookup Database).matched? (store k.target) doc) := by
  have hsees := (k.lookup : Lookup Database).matched?_insert hk (store k.target) doc
  rw [joinedThrough, List.foldlM_cons, Lookup.joined_eq]
  cases (j.lookup : Lookup Database).matched? (store j.target) doc with
  | none => rfl
  | some x =>
    show (k.lookup : Lookup Database).joined _ (doc.insert j.resultField x) >>= some = _
    rw [Option.bind_eq_bind, Option.bind_fun_some, Lookup.joined_eq, hsees]
    rfl

end Join

/-- Documents for which two values are found are kept, and come to what is made of both. -/
theorem Lookup.filterMap_map₂ (x y : Document → Option Value)
    (f : Document → Value → Value → Document) (docs : List Document) :
    docs.filterMap (fun doc => Option.map₂ (f doc) (x doc) (y doc)) =
      (docs.filter fun doc => (x doc).isSome && (y doc).isSome).map fun doc =>
        f doc ((x doc).getD .null) ((y doc).getD .null) := by
  induction docs with
  | nil => rfl
  | cons doc rest ih =>
    rw [List.filterMap_cons, List.filter_cons, ih]
    cases hx : x doc <;> cases hy : y doc <;> simp [hx, hy]

/-- **Independent lookups commute.** Two lookups on databases are built from configurations, with
foreign fields that are not named like operators. They set different fields, and the local path of
neither starts with the field that the other sets. In either order they keep the same documents in
the same order, and what comes of each is the same but for the order of the two fields where the
document had neither. -/
theorem Lookup.execute_comm {first second : Document} {db₁ db₁' db₂ db₂' : Database}
    {a b : Lookup Database}
    (builtFirst : (build Database.resolver first).on db₁ = (.ok a, db₁'))
    (builtSecond : (build Database.resolver second).on db₂ = (.ok b, db₂'))
    (hpa : isOperatorName a.foreignField = false) (hpb : isOperatorName b.foreignField = false)
    (hne : a.resultField ≠ b.resultField)
    (hab : (Path.segments b.localField).head? ≠ some a.resultField)
    (hba : (Path.segments a.localField).head? ≠ some b.resultField)
    (s : Database) (docs : List Document) :
    ∃ (kept : List Document) (f g : Document → Document) (events events' : List Event),
      kept.Sublist docs ∧
      (((Pipeline.empty.push a.stage).push b.stage).execute docs).on s =
        (.ok (kept.map f), s.noted events) ∧
      (((Pipeline.empty.push b.stage).push a.stage).execute docs).on s =
        (.ok (kept.map g), s.noted events') ∧
      ∀ doc, Document.Swapped a.resultField b.resultField doc (f doc) (g doc) := by
  obtain ⟨j, rfl, -⟩ := build_eq_ok builtFirst
  obtain ⟨k, rfl, -⟩ := build_eq_ok builtSecond
  obtain ⟨events, hrun⟩ :=
    Pipeline.execute_joined [j, k] (by simpa using ⟨hpa, hpb⟩) docs s
  obtain ⟨events', hrun'⟩ :=
    Pipeline.execute_joined [k, j] (by simpa using ⟨hpb, hpa⟩) docs s
  rw [funext (Join.joinedThrough_pair hab _), filterMap_map₂] at hrun
  rw [funext (Join.joinedThrough_pair hba _), filterMap_map₂] at hrun'
  refine ⟨_, _, _, events, events', List.filter_sublist, hrun, hrun'.trans ?_,
    fun doc => Document.insert_swapped hne doc _ _⟩
  simp only [Bool.and_comm]
  rfl

/-- Lookups of orders and of stock, for a document that has the field of the orders already and for
one that has neither field. -/
theorem Lookup.execute_comm_orders :
    let db := (((Database.empty "shop").register "orders").2.insert ⟨0⟩ [[("by", .string "a")]]
      |>.register "stock").2.insert ⟨1⟩ [[("code", .int 1)]]
    let docs : List Document := [[("name", .string "a"), ("orders", .null), ("code", .int 1)],
      [("name", .string "a"), ("code", .int 1)]]
    ∃ a db₁ b db₂,
      (build Database.resolver [("from", .string "orders"), ("localField", .string "name"),
        ("foreignField", .string "by"), ("as", .string "orders")]).on db = (.ok a, db₁) ∧
      (build Database.resolver [("from", .string "stock"), ("localField", .string "code"),
        ("foreignField", .string "code"), ("as", .string "stock")]).on db = (.ok b, db₂) ∧
      ∃ (kept : List Document) (f g : Document → Document) (events events' : List Event),
        kept.Sublist docs ∧
        (((Pipeline.empty.push a.stage).push b.stage).execute docs).on db =
          (.ok (kept.map f), db.noted events) ∧
        (((Pipeline.empty.push b.stage).push a.stage).execute docs).on db =
          (.ok (kept.map g), db.noted events') ∧
        kept.length = 2 ∧ ∀ doc, Document.Swapped "orders" "stock" doc (f doc) (g doc) := by
  intro db docs
  have builtOrders : (build Database.resolver [("from", .string "orders"),
      ("localField", .string "name"), ("foreignField", .string "by"), ("as", .string "orders")]).on
      db = (.ok (⟨"orders", "name", "by", "orders", ⟨0⟩⟩ : Join).lookup, _) := rfl
  have builtStock : (build Database.resolver [("from", .string "stock"),
      ("localField", .string "code"), ("foreignField", .string "code"), ("as", .string "stock")]).on
      db = (.ok (⟨"stock", "code", "code", "stock", ⟨1⟩⟩ : Join).lookup, _) := rfl
  refine ⟨_, _, _, _, builtOrders, builtStock, ?_⟩
  obtain ⟨kept, f, g, events, events', hkept, hrun, hrun', hswapped⟩ :=
    execute_comm builtOrders builtStock (by decide) (by decide) (by decide) (by decide) (by decide)
      db docs
  refine ⟨kept, f, g, events, events', hkept, hrun, hrun', ?_, hswapped⟩
  have hcount : ((((Pipeline.empty.push
      (⟨"orders", "name", "by", "orders", ⟨0⟩⟩ : Join).lookup.stage).push
      (⟨"stock", "code", "code", "stock", ⟨1⟩⟩ : Join).lookup.stage).execute docs).on db).1.map
        List.length = .ok 2 := by
    rw [Pipeline.execute_cons, Pipeline.execute_cons, Pipeline.execute_nil]
    rfl
  rw [hrun] at hcount
  simpa [Except.map] using hcount

end DocStore
