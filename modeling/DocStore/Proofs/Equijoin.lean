import DocStore.Proofs.Pulls

/-!
# Lookups are joins on equality

A run of a lookup in a database is told by the documents alone: those of the collection that its
configuration names, and those that are put in.

* `Lookup.joined` is what becomes of a document: matches are found leaf by leaf of its local value,
  a document without any is dropped.
* `Pipeline.execute_joined` is a run of lookups that cannot fail.
* `Lookup.build_eq_ok` says what a lookup has when its configuration is accepted.
* `Lookup.execute_joins` is the main statement, from the configuration to the documents that come
  out.
-/

namespace DocStore

/-! ## Filters of equality -/

namespace Filter

theorem combination?_eq_none {path : String} (hp : isOperatorName path = false) :
    combination? path = none := by
  have hne : ∀ operator, isOperatorName operator = true → path ≠ operator := by
    rintro _ h rfl
    rw [h] at hp
    cases hp
  rw [combination?, if_neg (hne _ (by decide)), if_neg (hne _ (by decide)),
    if_neg (hne _ (by decide))]

/-- A filter document of one path says what the path says. -/
theorem ofDocument_singleton {path : String} (value : Value) (hp : isOperatorName path = false) :
    ofDocument [(path, value)] = readPath path value := by
  rw [ofDocument, if_neg (by simp [maxClauses]), readClauses, combination?_eq_none hp, readClauses,
    if_neg (by simp [hp])]
  cases readPath path value <;> rfl

end Filter

/-- The query of a value asks for equality with it, also where the value looks like operators. -/
theorem Lookup.ofDocument_equalityFilter {σ : Type} (l : Lookup σ) (value : Value)
    (hp : isOperatorName l.foreignField = false) :
    Filter.ofDocument (l.equalityFilter value) = .ok (.equality l.foreignField value) := by
  unfold equalityFilter
  split
  · rename_i fields
    split <;> rename_i hs
    · rw [Filter.ofDocument_singleton _ hp]
      rfl
    · rw [Filter.ofDocument_singleton _ hp, Filter.readPath, if_neg hs]
  · rename_i hv
    rw [Filter.ofDocument_singleton _ hp]
    cases value with
    | document fields => exact absurd rfl (hv fields)
    | _ => rfl

/-! ## Joined documents -/

/-- The documents that a value is joined with: for one leaf after the other, those whose foreign
field equals the leaf, in order. -/
def joinedWith (stored : List Document) (foreignField : String) (value : Value) : List Document :=
  value.leaves.flatMap fun leaf => stored.filter (Filter.equality foreignField leaf).fulfilledBy

/-- What becomes of a document: without a match nothing, otherwise the document with the array of
its matches under the result field. An absent local field counts as null. -/
def Lookup.joined {σ : Type} (l : Lookup σ) (stored : List Document) (doc : Document) :
    Option Document :=
  match joinedWith stored l.foreignField ((doc.gather? l.localField).getD .null) with
  | [] => none
  | found => some (doc.withField l.resultField (.array (found.map .document)))

theorem Item.mapM_map_ok (docs : List Document) :
    (docs.map Except.ok : List Item).mapM id = Except.ok docs := by
  induction docs with
  | nil => rfl
  | cons doc rest ih =>
    rw [List.map_cons, List.mapM_cons, ih]
    rfl

namespace Join

variable (j : Join) (store : Contents) (hp : isOperatorName j.foreignField = false)

include hp

theorem found_result (leaves : List Value) :
    (j.found store leaves).result = .ok (leaves.flatMap fun leaf =>
      (store j.target).filter (Filter.equality j.foreignField leaf).fulfilledBy) := by
  induction leaves with
  | nil => rfl
  | cons leaf rest ih =>
    have hanswer : answer (store j.target) (j.query leaf).filter =
        .ok ((store j.target).filter (Filter.equality j.foreignField leaf).fulfilledBy) := by
      rw [answer, query, Lookup.ofDocument_equalityFilter _ _ hp]
      rfl
    rw [found, Outcome.result_bind, hanswer, List.flatMap_cons]
    show ((j.found store rest >>= _).result : Except _ _) = _
    rw [Outcome.result_bind, ih]
    rfl

theorem row_result (doc : Document) :
    (j.row store doc).result =
      .ok ((j.lookup : Lookup Database).joined (store j.target) doc) := by
  rw [row, Outcome.result_bind, j.found_result store hp]
  show _ = Except.ok (match joinedWith (store j.target) j.foreignField
      ((doc.gather? j.localField).getD .null) with
    | [] => none
    | found => some (doc.withField j.resultField (.array (found.map .document))))
  rw [joinedWith]
  cases List.flatMap _ _ <;> rfl

end Join

/-! ## Lookups that cannot fail -/

namespace Join

/-- What becomes of a document in lookups one after the other. -/
def joinedThrough (joins : List Join) (store : Contents) (doc : Document) : Option Document :=
  joins.foldlM (fun doc j => (j.lookup : Lookup Database).joined (store j.target) doc) doc

section

variable {joins : List Join} (hp : ∀ j ∈ joins, isOperatorName j.foreignField = false)
  (store : Contents)

include hp

theorem chain_result (doc : Document) :
    (chain joins store doc).result = .ok (joinedThrough joins store doc) := by
  induction joins generalizing doc with
  | nil => rfl
  | cons j rest ih =>
    obtain ⟨hj, hrest⟩ := List.forall_mem_cons.1 hp
    rw [chain, Outcome.result_bind, j.row_result store hj, joinedThrough, List.foldlM_cons]
    cases (j.lookup : Lookup Database).joined (store j.target) doc with
    | none => rfl
    | some out => exact ih hrest out

/-- The outputs of documents are those that are joined. -/
theorem filterMap_outputs (docs : List Document) :
    (docs.map .ok).filterMap (output joins store) =
      (docs.filterMap (joinedThrough joins store)).map .ok := by
  rw [List.filterMap_map, List.map_filterMap]
  congr 1
  funext doc
  rw [Function.comp, output, chain_result hp]

end

theorem filterMap_output (j : Join) (store : Contents)
    (hp : isOperatorName j.foreignField = false) (docs : List Document) :
    (docs.map .ok).filterMap (output [j] store) =
      (docs.filterMap ((j.lookup : Lookup Database).joined (store j.target))).map .ok := by
  have hsingle : joinedThrough [j] store = (j.lookup : Lookup Database).joined (store j.target) :=
    funext fun doc => Option.bind_fun_some _
  rw [filterMap_outputs (by simpa using hp), hsingle]

end Join

/-- A run of lookups whose foreign fields are not named like operators does not fail, and leaves
only notes behind. -/
theorem Pipeline.execute_joined (joins : List Join)
    (hp : ∀ j ∈ joins, isOperatorName j.foreignField = false) (docs : List Document)
    (s : Database) : ∃ events, (execute ⟨Join.stages joins⟩ docs).on s =
      (.ok (docs.filterMap (Join.joinedThrough joins (contents s))), s.noted events) := by
  obtain ⟨t, ht, events, rfl⟩ := Join.execute_comesTo joins docs s
  refine ⟨events, ht.trans ?_⟩
  rw [Join.filterMap_outputs hp, Item.mapM_map_ok]

/-! ## The configuration -/

/-- An action that succeeds after another follows one that succeeds. -/
theorem Action.on_bind_eq_ok {σ α β : Type} {action : Action σ α} {next : α → Action σ β}
    {s u : σ} {b : β} (h : (action >>= next).on s = (.ok b, u)) :
    ∃ a t, action.on s = (.ok a, t) ∧ (next a).on t = (.ok b, u) := by
  have hbind : (action >>= next).on s =
      (ExceptT.bindCont next (action.on s).1).run (action.on s).2 := rfl
  rcases hrun : action.on s with ⟨result, t⟩
  rw [hbind, hrun] at h
  cases result with
  | error e => cases h
  | ok a => exact ⟨a, t, rfl, h⟩

theorem Options.text_eq_ok {configuration : Document} {stage key s : String}
    (h : Options.text configuration stage key = .ok s) :
    configuration.get? key = some (.string s) := by
  unfold Options.text at h
  split at h <;> cases h
  assumption

theorem Options.path_eq_ok {configuration : Document} {stage key s : String}
    (h : Options.path configuration stage key = .ok s) :
    configuration.get? key = some (.string s) := by
  rw [Options.path] at h
  cases ht : Options.text configuration stage key with
  | error fault =>
    rw [ht] at h
    cases h
  | ok path =>
    have hs : (if Path.maxSegments < (Path.segments path).length then
        Except.error (SpecificationFault.longPath stage key path Path.maxSegments)
        else Except.ok path) = Except.ok s := by
      rw [ht] at h
      exact h
    split at hs <;> cases hs
    exact Options.text_eq_ok ht

theorem Lookup.reading_on_eq_ok {σ α : Type} {result : Except SpecificationFault α} {s t : σ}
    {a : α} (h : (reading result).on s = (.ok a, t)) : result = .ok a ∧ t = s := by
  cases result with
  | error fault => cases h
  | ok b =>
    cases h
    exact ⟨rfl, rfl⟩

namespace Database

/-- What stands for the collection of a name, and the incarnations after it has been looked for:
that of the name, or a new one without documents where the name has none. -/
def Resolved (db : Database) (name : String) (h : Handle) (db' : Database) : Prop :=
  db.get? name = some h ∧ db'.incarnations = db.incarnations ∨
    db.get? name = none ∧ h = ⟨db.incarnations.length⟩ ∧
      db'.incarnations = db.incarnations ++ [Collection.empty name]

theorem resolver_on_eq_ok {db t : Database} {name : String} {target : Target Database}
    (h : (resolver name false).on db = (.ok target, t)) :
    ∃ handle, target = Database.target name handle ∧ db.Resolved name handle t := by
  obtain ⟨handle, u, hres, hput⟩ := Action.on_bind_eq_ok h
  cases hput
  refine ⟨handle, rfl, ?_⟩
  have hstep : db.resolve name false = .ok (handle, t) := by
    rw [Action.on, Action.ofStep, ExceptT.run_mk] at hres
    cases hr : db.resolve name false with
    | error e =>
      simp [hr] at hres
    | ok found =>
      simp only [hr, Prod.mk.injEq, Except.ok.injEq] at hres
      rw [← hres.1, ← hres.2]
  rw [resolve] at hstep
  split at hstep
  · cases hstep
  · split at hstep
    · cases hstep
      exact .inl ⟨‹_›, rfl⟩
    · cases hstep
      exact .inr ⟨‹_›, rfl, rfl⟩

end Database

/-- **What an accepted configuration makes.** Each option is in the configuration, and the lookup is
one in the collection of the name that the configuration gives. -/
theorem Lookup.build_eq_ok {configuration : Document} {db db' : Database} {l : Lookup Database}
    (built : (build Database.resolver configuration).on db = (.ok l, db')) :
    ∃ j : Join, l = j.lookup ∧ db.Resolved j.source j.target db' ∧
      configuration.get? "from" = some (.string j.source) ∧
      configuration.get? "localField" = some (.string j.localField) ∧
      configuration.get? "foreignField" = some (.string j.foreignField) ∧
      configuration.get? "as" = some (.string j.resultField) := by
  -- The steps of the construction one by one, each on the database that the one before left.
  obtain ⟨source, t₁, hsource, h⟩ := Action.on_bind_eq_ok built
  obtain ⟨target, t₂, htarget, h⟩ := Action.on_bind_eq_ok h
  obtain ⟨localField, t₃, hlocal, h⟩ := Action.on_bind_eq_ok h
  obtain ⟨foreignField, t₄, hforeign, h⟩ := Action.on_bind_eq_ok h
  obtain ⟨resultField, t₅, hresult, h⟩ := Action.on_bind_eq_ok h
  obtain ⟨_, t₆, hknown, h⟩ := Action.on_bind_eq_ok h
  obtain ⟨_, t₇, hnote, h⟩ := Action.on_bind_eq_ok h
  cases hnote
  cases h
  obtain ⟨from_eq, rfl⟩ := reading_on_eq_ok hsource
  obtain ⟨local_eq, rfl⟩ := reading_on_eq_ok hlocal
  obtain ⟨foreign_eq, rfl⟩ := reading_on_eq_ok hforeign
  obtain ⟨as_eq, rfl⟩ := reading_on_eq_ok hresult
  obtain ⟨-, rfl⟩ := reading_on_eq_ok hknown
  obtain ⟨handle, rfl, hres⟩ := Database.resolver_on_eq_ok htarget
  exact ⟨⟨source, localField, foreignField, resultField, handle⟩, rfl, hres,
    Options.text_eq_ok from_eq, Options.path_eq_ok local_eq, Options.path_eq_ok foreign_eq,
    Options.text_eq_ok as_eq⟩

/-! ## The join -/

/-- **A lookup joins on equality.** Built on a database from a configuration that it accepts, whose
foreign field is not named like an operator, a lookup stands in the collection of the configured
name; on every database its run gives the joined documents, and only notes are left behind. -/
theorem Lookup.execute_joins {configuration : Document} {db db' : Database} {l : Lookup Database}
    (built : (build Database.resolver configuration).on db = (.ok l, db'))
    (hp : isOperatorName l.foreignField = false) :
    (configuration.get? "from" = some (.string l.source) ∧
      configuration.get? "localField" = some (.string l.localField) ∧
      configuration.get? "foreignField" = some (.string l.foreignField) ∧
      configuration.get? "as" = some (.string l.resultField)) ∧
    ∃ h, db.Resolved l.source h db' ∧
      ∀ (s : Database) (docs : List Document), ∃ events,
        ((Pipeline.empty.push l.stage).execute docs).on s =
          (.ok (docs.filterMap (l.joined (s.collection h).documents)), s.noted events) := by
  obtain ⟨j, rfl, hres, hfields⟩ := build_eq_ok built
  refine ⟨hfields, j.target, hres, fun s docs => ?_⟩
  obtain ⟨t, ht, events, rfl⟩ := Join.execute_comesTo [j] docs s
  refine ⟨events, ht.trans ?_⟩
  rw [j.filterMap_output _ hp, Item.mapM_map_ok]
  rfl

theorem Lookup.execute_joins_orders :
    ∃ l db' events,
      (build Database.resolver [("from", .string "orders"), ("localField", .string "name"),
          ("foreignField", .string "by"), ("as", .string "orders")]).on
        (((Database.empty "shop").register "orders").2.insert ⟨0⟩
          [[("by", .string "a")], [("by", .string "b")]]) = (.ok l, db') ∧
      ((Pipeline.empty.push l.stage).execute [[("name", .string "a")], [("name", .string "c")]]).on
          db' =
        (.ok [[("name", .string "a"), ("orders", .array [.document [("by", .string "a")]])]],
          db'.noted events) := by
  have built : (build Database.resolver [("from", .string "orders"), ("localField", .string "name"),
      ("foreignField", .string "by"), ("as", .string "orders")]).on
        (((Database.empty "shop").register "orders").2.insert ⟨0⟩
          [[("by", .string "a")], [("by", .string "b")]]) =
      (.ok (⟨"orders", "name", "by", "orders", ⟨0⟩⟩ : Join).lookup, _) := rfl
  obtain ⟨-, h, ⟨hname, -⟩ | ⟨hnone, -⟩, hrun⟩ := execute_joins built (by decide)
  · cases hname
    obtain ⟨events, he⟩ := hrun _ [[("name", .string "a")], [("name", .string "c")]]
    exact ⟨_, _, events, built, he⟩
  · cases hnone

end DocStore
