import DocStore.Proofs.Building

/-!
# Clients of a database

A client makes requests of a database and holds on to what it is given: handles of collections,
readers, lookups and pipelines. It enters documents through its handles, and asks whatever it holds,
in any order.

* `Client.step` is one `Request`, `Client.run` several; `Client.create_cases` and its likes say what
  a request comes to.
* `Share` is what the client is given, told by the incarnations that it stands for; `Share.asked` is
  what it answers, from the contents of the store alone.
* `Share.asked_comesTo` is the main statement: what a client holds answers as its share.
* `Share.asked_congr` says that a share looks at nothing but what its own incarnations hold.
-/

namespace DocStore

/-! ## Requests -/

/-- What is asked of something that stands for collections. -/
inductive Inquiry where
  /-- The documents that fulfil a filter document. -/
  | query (filter : Document)
  /-- The documents that fulfil a filter. -/
  | find (filter : Filter)
  /-- The matches of a document. -/
  | resolve (doc : Document)
  /-- What becomes of documents. -/
  | execute (docs : List Document)

/-- What a client requests. What it has been given is numbered in the order in which it was. -/
inductive Request where
  /-- A new collection is created, and its handle given. -/
  | create (name : String)
  | drop (name : String)
  /-- The handle of a registered collection. -/
  | get (name : String)
  /-- A reader of the collection of a name; the flag asks for it to be created where there is
  none. -/
  | resolve (name : String) (create : Bool)
  /-- A lookup from its configuration. -/
  | build (configuration : Document)
  /-- A pipeline from specifications. -/
  | parse (specs : List Document)
  /-- Documents are entered through a handle. -/
  | insert (i : Nat) (docs : List Document)
  | ask (i : Nat) (inquiry : Inquiry)

/-- What a request is answered with. -/
inductive Response where
  /-- There is something more to hold. -/
  | given
  | refused (e : Failure)
  /-- There is nothing that the request could be about. -/
  | nothing
  | dropped (found : Bool)
  | entered
  | documents (result : Except Failure (List Document))

/-! ## Clients -/

/-- What a client can hold. -/
inductive Holding where
  | collection (h : Handle)
  | reader (target : Target Database)
  | stage (l : Lookup Database)
  | pipeline (p : Pipeline Database)

/-- What is done to answer an inquiry. Not everything can be asked all of them. -/
def Holding.asked : Holding → Inquiry → Option (Action Database (List Document))
  | collection h, .query filter =>
    some (Cursor.rest <$> Action.ofStep fun db => db.query h filter)
  | collection h, .find filter =>
    some (Cursor.rest <$> Action.ofStep fun db => .ok (db.find h filter))
  | reader target, .query filter => some (Cursor.rest <$> target.query filter)
  | stage l, .query filter => some (Cursor.rest <$> l.target.query filter)
  | stage l, .resolve doc => some (l.resolve doc)
  | stage l, .execute docs => some ((Pipeline.empty.push l.stage).execute docs)
  | pipeline p, .execute docs => some (p.execute docs)
  | _, _ => none

/-- A database and what a client of it holds. -/
structure Client where
  database : Database
  held : List Holding

namespace Client

/-- The client of a new database. -/
def initial (name : String) : Client := ⟨.empty name, []⟩

/-- Try an action and hold what it gives. -/
def obtain {α : Type} (c : Client) (action : Action Database α) (holding : α → Holding) :
    Response × Client :=
  match action.on c.database with
  | (.ok a, db) => (.given, ⟨db, c.held ++ [holding a]⟩)
  | (.error e, db) => (.refused e, { c with database := db })

/-- One request. -/
def step (c : Client) : Request → Response × Client
  | .create name => c.obtain (Action.ofStep fun db => db.create name) .collection
  | .drop name =>
    let (found, db) := c.database.drop name
    (.dropped found, { c with database := db })
  | .get name =>
    match c.database.get? name with
    | some h => (.given, { c with held := c.held ++ [.collection h] })
    | none => (.nothing, c)
  | .resolve name create => c.obtain (Database.resolver name create) .reader
  | .build configuration => c.obtain (Lookup.build Database.resolver configuration) .stage
  | .parse specs => c.obtain (Pipeline.build Database.resolver specs) .pipeline
  | .insert i docs =>
    match c.held[i]? with
    | some (.collection h) => (.entered, { c with database := c.database.insert h docs })
    | _ => (.nothing, c)
  | .ask i inquiry =>
    match c.held[i]?.bind (·.asked inquiry) with
    | some action =>
      let (result, db) := action.on c.database
      (.documents result, { c with database := db })
    | none => (.nothing, c)

/-- Requests one after the other, with what they are answered with. -/
def run (c : Client) : List Request → List Response × Client
  | [] => ([], c)
  | r :: rest =>
    let (response, c) := c.step r
    let (responses, c) := c.run rest
    (response :: responses, c)

/-! ### What each request comes to -/

section

variable {c : Client} {α : Type} {action : Action Database α} {db : Database}

theorem obtain_ok {a : α} (h : action.on c.database = (.ok a, db)) (holding : α → Holding) :
    c.obtain action holding = (.given, ⟨db, c.held ++ [holding a]⟩) := by
  rw [Client.obtain, h]

theorem obtain_error {e : Failure} (h : action.on c.database = (.error e, db))
    (holding : α → Holding) : c.obtain action holding = (.refused e, ⟨db, c.held⟩) := by
  rw [Client.obtain, h]

theorem obtain_database {result : Except Failure α} (h : action.on c.database = (result, db))
    (holding : α → Holding) : (c.obtain action holding).2.database = db := by
  rw [obtain, h]
  cases result <;> rfl

end

theorem create_cases (c : Client) (name : String) :
    (Database.validName name = false ∧
      c.step (.create name) = (.refused (.invalidName name), c)) ∨
    (Database.validName name = true ∧ (c.database.get? name).isSome = true ∧
      c.step (.create name) = (.refused (.collectionExists name), c)) ∨
    (Database.validName name = true ∧ c.database.get? name = none ∧
      c.step (.create name) = (.given,
        ⟨(c.database.register name).2.note (.collectionCreated c.database.name name),
          c.held ++ [.collection ⟨c.database.incarnations.length⟩]⟩)) := by
  cases hv : Database.validName name with
  | false => exact .inl ⟨rfl, obtain_error (Database.create_on_invalid hv c.database) _⟩
  | true =>
    cases hget : c.database.get? name with
    | some h =>
      exact .inr (.inl ⟨rfl, rfl, obtain_error (Database.create_on_registered hv hget) _⟩)
    | none => exact .inr (.inr ⟨rfl, rfl, obtain_ok (Database.create_on_free hv hget) _⟩)

theorem drop_cases (c : Client) (name : String) :
    (c.database.get? name = none ∧ c.step (.drop name) = (.dropped false, c)) ∨
    ((c.database.get? name).isSome = true ∧ c.step (.drop name) = (.dropped true,
      ⟨{ c.database with registry := c.database.registry.erase name }.note
        (.collectionDropped c.database.name name), c.held⟩)) := by
  rw [step, Database.drop]
  cases c.database.get? name with
  | none => exact .inl ⟨rfl, rfl⟩
  | some h => exact .inr ⟨rfl, rfl⟩

/-- A resolution is refused, registers the name, or leaves the registry as it is; the last only if
it is not to create the collection, or the name is registered. -/
theorem resolve_cases (c : Client) (name : String) (create : Bool) :
    (Database.validName name = false ∧
      c.step (.resolve name create) = (.refused (.invalidName name), c)) ∨
    (Database.validName name = true ∧ create = true ∧ c.database.get? name = none ∧
      c.step (.resolve name create) = (.given, ⟨(c.database.register name).2,
        c.held ++ [.reader (Database.target name ⟨c.database.incarnations.length⟩)]⟩)) ∨
    (Database.validName name = true ∧ (create = true → (c.database.get? name).isSome = true) ∧
      ∃ h db, c.database.Widens db ∧ c.database.StandsFor name h db ∧
        c.step (.resolve name create) =
          (.given, ⟨db, c.held ++ [.reader (Database.target name h)]⟩)) := by
  cases hv : Database.validName name with
  | false => exact .inl ⟨rfl, obtain_error (Database.resolver_on_invalid hv create _) _⟩
  | true =>
    right
    cases create with
    | false =>
      obtain ⟨h, db, hres, hw, hstands⟩ := Database.resolver_on hv c.database
      exact .inr ⟨rfl, by simp, h, db, hw, hstands, obtain_ok hres _⟩
    | true =>
      cases hget : c.database.get? name with
      | some h =>
        have hres := Database.resolver_on_registered hv hget true
        exact .inr ⟨rfl, by simp, h, c.database, .refl _, .inl hget, obtain_ok hres _⟩
      | none => exact .inl ⟨rfl, rfl, rfl, obtain_ok (Database.resolver_on_free hv hget) _⟩

theorem insert_cases (c : Client) (i : Nat) (docs : List Document) :
    c.step (.insert i docs) = (.nothing, c) ∨
    ∃ h, c.held[i]? = some (.collection h) ∧
      c.step (.insert i docs) = (.entered, ⟨c.database.insert h docs, c.held⟩) := by
  rw [step]
  split
  · exact .inr ⟨_, ‹_›, rfl⟩
  · exact .inl rfl

end Client

/-! ## Shares -/

/-- What a client is given, told by the incarnations that it stands for. -/
inductive Share where
  | collection (h : Handle)
  | reader (name : String) (h : Handle)
  | stage (j : Join)
  | pipeline (joins : List Join)

/-- What lookups make of documents, or the first failure among them. -/
def Join.rows (joins : List Join) (store : Contents) (docs : List Document) :
    Except Failure (List Document) :=
  ((docs.map .ok).filterMap (output joins store)).mapM id

namespace Share

/-- What is held where a share is given. -/
def holding : Share → Holding
  | collection h => .collection h
  | reader name h => .reader (Database.target name h)
  | stage j => .stage j.lookup
  | pipeline joins => .pipeline ⟨Join.stages joins⟩

/-- The incarnations that a share stands for. -/
def targets : Share → List Handle
  | collection h | reader _ h => [h]
  | stage j => [j.target]
  | pipeline joins => joins.map (·.target)

/-- What a share answers, from what the incarnations hold. -/
def asked (store : Contents) : Share → Inquiry → Option (Except Failure (List Document))
  | collection h, .query filter | reader _ h, .query filter => some (answer (store h) filter)
  | collection h, .find filter => some (.ok ((store h).filter filter.fulfilledBy))
  | stage j, .query filter => some (answer (store j.target) filter)
  | stage j, .resolve doc =>
    some (j.found store ((doc.gather? j.localField).getD .null).leaves).result
  | stage j, .execute docs => some (Join.rows [j] store docs)
  | pipeline joins, .execute docs => some (Join.rows joins store docs)
  | _, _ => none

theorem query_comesTo (name : String) (h : Handle) (filter : Document) (db : Database) :
    ∃ qs, ComesTo (Cursor.rest <$> (Database.target name h).query filter) db
      ⟨qs, answer (contents db h) filter⟩ := by
  obtain ⟨t, ht, hafter⟩ := Queried.query_target name h filter db
  refine ⟨[⟨h, filter⟩], t, (Action.on_map Cursor.rest ht).trans ?_, hafter⟩
  cases answer (contents db h) filter <;> rfl

/-- **What is held answers as its share**, or cannot be asked if the share cannot. -/
theorem asked_comesTo (s : Share) (inquiry : Inquiry) (db : Database) :
    Option.Rel (fun action result => ∃ qs, ComesTo action db ⟨qs, result⟩)
      (s.holding.asked inquiry) (s.asked (contents db) inquiry) := by
  cases s with
  | collection h =>
    cases inquiry with
    | query filter => exact .some (query_comesTo "" h filter db)
    | find filter => exact .some ⟨[], _, rfl, [_], rfl⟩
    | resolve doc => exact .none
    | execute docs => exact .none
  | reader name h =>
    cases inquiry with
    | query filter => exact .some (query_comesTo name h filter db)
    | _ => exact .none
  | stage j =>
    cases inquiry with
    | query filter => exact .some (query_comesTo j.source j.target filter db)
    | find filter => exact .none
    | resolve doc => exact .some ⟨_, j.resolve_comesTo doc db⟩
    | execute docs => exact .some ⟨_, Join.execute_comesTo [j] docs db⟩
  | pipeline joins =>
    cases inquiry with
    | execute docs => exact .some ⟨_, Join.execute_comesTo joins docs db⟩
    | _ => exact .none

/-- Whatever is held, asking it leaves no more than notes. -/
theorem asked_noted (s : Share) {inquiry : Inquiry} {action : Action Database (List Document)}
    (h : s.holding.asked inquiry = some action) (db : Database) :
    ∃ events, (action.on db).2 = db.noted events := by
  have hcomes := s.asked_comesTo inquiry db
  rw [h] at hcomes
  generalize s.asked (contents db) inquiry = told at hcomes
  cases hcomes with
  | some hresult =>
    obtain ⟨qs, db', hrun, events, rfl⟩ := hresult
    exact ⟨events, congrArg Prod.snd hrun⟩

end Share

/-! ## Lookups where there is nothing -/

namespace Join

variable {store : Contents}

theorem found_of_empty {j : Join} (hstore : store j.target = []) {leaves : List Value}
    {found : List Document} (h : (j.found store leaves).result = .ok found) : found = [] := by
  induction leaves generalizing found with
  | nil => exact (Except.ok.inj h).symm
  | cons leaf rest ih =>
    rw [Join.found, Outcome.result_bind, hstore, answer] at h
    cases hfilter : Filter.ofDocument (j.query leaf).filter with
    | error fault =>
      rw [hfilter] at h
      cases h
    | ok filter =>
      rw [hfilter] at h
      have hrest : ((j.found store rest >>= fun more => pure ([] ++ more)).result) = .ok found := h
      rw [Outcome.result_bind] at hrest
      cases hmore : (j.found store rest).result with
      | error e =>
        rw [hmore] at hrest
        cases hrest
      | ok more =>
        rw [hmore] at hrest
        rw [← Except.ok.inj hrest, ih hmore]
        rfl

theorem row_of_empty {j : Join} (hstore : store j.target = []) {doc : Document}
    {out : Option Document} (h : (j.row store doc).result = .ok out) : out = none := by
  rw [row, Outcome.result_bind] at h
  cases hfound : (j.found store ((doc.gather? j.localField).getD .null).leaves).result with
  | error e =>
    rw [hfound] at h
    cases h
  | ok found =>
    rw [hfound, found_of_empty hstore hfound] at h
    exact (Except.ok.inj h).symm

theorem chain_of_empty {joins : List Join} (hempty : ∃ j ∈ joins, store j.target = [])
    {doc : Document} {out : Option Document} (h : (chain joins store doc).result = .ok out) :
    out = none := by
  induction joins generalizing doc with
  | nil => simp at hempty
  | cons j rest ih =>
    rw [chain, Outcome.result_bind] at h
    cases hrow : (j.row store doc).result with
    | error e =>
      rw [hrow] at h
      cases h
    | ok passed =>
      rw [hrow] at h
      cases passed with
      | none => exact (Except.ok.inj h).symm
      | some passed =>
        rcases (List.exists_mem_cons_iff ..).1 hempty with hj | hrest
        · cases row_of_empty hj hrow
        · exact ih hrest h

/-- Lookups one of which looks where there is nothing give nothing. -/
theorem rows_of_empty {joins : List Join} (hempty : ∃ j ∈ joins, store j.target = [])
    {docs out : List Document} (h : rows joins store docs = .ok out) : out = [] := by
  have houtput : ∀ doc found, output joins store (.ok doc) ≠ some (.ok found) := by
    intro doc found ho
    rw [output] at ho
    cases hchain : (chain joins store doc).result with
    | error e => simp [hchain] at ho
    | ok passed => simp [hchain, chain_of_empty hempty hchain] at ho
  rw [rows] at h
  cases hitems : (docs.map Except.ok).filterMap (output joins store) with
  | nil =>
    rw [hitems] at h
    exact (Except.ok.inj h).symm
  | cons item rest =>
    have hmem : item ∈ (docs.map Except.ok).filterMap (output joins store) := by simp [hitems]
    obtain ⟨_, hdoc, hitem⟩ := List.mem_filterMap.1 hmem
    obtain ⟨doc, -, rfl⟩ := List.mem_map.1 hdoc
    cases item with
    | ok found => exact absurd hitem (houtput doc found)
    | error e =>
      rw [hitems] at h
      cases h

end Join

/-! ## Shares of the same documents -/

section

variable {store store' : Contents} {R : Handle → Handle → Prop}

/-- Two lookups that differ in their incarnations only. -/
def Join.Rel (R : Handle → Handle → Prop) (j j' : Join) : Prop :=
  ∃ (p : Plan) (h h' : Handle), j = p.join h ∧ j' = p.join h' ∧ R h h'

/-- Two shares that differ in their incarnations only. -/
inductive Share.Rel (R : Handle → Handle → Prop) : Share → Share → Prop
  | collection {h h' : Handle} : R h h' → Rel R (.collection h) (.collection h')
  | reader {name : String} {h h' : Handle} : R h h' → Rel R (.reader name h) (.reader name h')
  | stage {j j' : Join} : Join.Rel R j j' → Rel R (.stage j) (.stage j')
  | pipeline {joins joins' : List Join} :
    List.Forall₂ (Join.Rel R) joins joins' → Rel R (.pipeline joins) (.pipeline joins')

namespace Join

theorem Rel.imp {R' : Handle → Handle → Prop} {j j' : Join} (hR : ∀ h h', R h h' → R' h h')
    (hj : Rel R j j') : Rel R' j j' := by
  obtain ⟨p, h, h', rfl, rfl, hh⟩ := hj
  exact ⟨p, h, h', rfl, rfl, hR h h' hh⟩

/-- Lookups in incarnations that hold the same documents find the same. -/
theorem found_congr {j j' : Join} (hj : Rel (fun h h' => store h = store' h') j j')
    (leaves : List Value) : (j.found store leaves).result = (j'.found store' leaves).result := by
  obtain ⟨p, h, h', rfl, rfl, hstore⟩ := hj
  induction leaves with
  | nil => rfl
  | cons leaf rest ih =>
    have hanswer : answer (store h) ((p.join h).query leaf).filter =
        answer (store' h') ((p.join h').query leaf).filter := by
      rw [hstore]
      rfl
    simp only [found, Outcome.result_bind, ih]
    exact congrArg (Except.bind · _) hanswer

theorem row_congr {j j' : Join} (hj : Rel (fun h h' => store h = store' h') j j') (doc : Document) :
    (j.row store doc).result = (j'.row store' doc).result := by
  have hfound := found_congr hj
  obtain ⟨p, h, h', rfl, rfl, -⟩ := hj
  rw [row, row, Outcome.result_bind, Outcome.result_bind, hfound]
  refine congrArg (Except.bind _) (funext fun found => ?_)
  split_ifs <;> rfl

theorem chain_congr {joins joins' : List Join}
    (hjoins : List.Forall₂ (Rel fun h h' => store h = store' h') joins joins') (doc : Document) :
    (chain joins store doc).result = (chain joins' store' doc).result := by
  induction hjoins generalizing doc with
  | nil => rfl
  | cons hj _ ih =>
    rw [chain, chain, Outcome.result_bind, Outcome.result_bind, row_congr hj]
    refine congrArg (Except.bind _) (funext fun out => ?_)
    cases out with
    | none => rfl
    | some out => exact ih out

theorem rows_congr {joins joins' : List Join}
    (hjoins : List.Forall₂ (Rel fun h h' => store h = store' h') joins joins')
    (docs : List Document) : rows joins store docs = rows joins' store' docs := by
  have houtput : output joins store = output joins' store' := by
    funext item
    cases item with
    | error e => rfl
    | ok doc => rw [output, output, chain_congr hjoins]
  rw [rows, rows, houtput]

end Join

namespace Share

theorem Rel.imp {R' : Handle → Handle → Prop} {s s' : Share} (hR : ∀ h h', R h h' → R' h h')
    (hs : Rel R s s') : Rel R' s s' := by
  cases hs with
  | collection h => exact .collection (hR _ _ h)
  | reader h => exact .reader (hR _ _ h)
  | stage h => exact .stage (h.imp hR)
  | pipeline h => exact .pipeline (h.imp fun _ _ => Join.Rel.imp hR)

/-- A share looks at nothing but its own incarnations. -/
theorem rel_self {s : Share} (h : ∀ o ∈ s.targets, R o o) : Rel R s s := by
  have hjoin : ∀ j : Join, R j.target j.target → Join.Rel R j j :=
    fun j hj => ⟨⟨j.source, j.localField, j.foreignField, j.resultField⟩, _, _, rfl, rfl, hj⟩
  cases s with
  | collection o => exact .collection (h o (List.mem_singleton_self o))
  | reader name o => exact .reader (h o (List.mem_singleton_self o))
  | stage j => exact .stage (hjoin j (h _ (List.mem_singleton_self _)))
  | pipeline joins =>
    refine .pipeline (List.forall₂_same.2 fun j hj => ?_)
    exact hjoin j (h _ (List.mem_map_of_mem hj))

/-- Shares whose incarnations hold the same documents answer the same. -/
theorem asked_congr {s s' : Share} (hs : Rel (fun h h' => store h = store' h') s s')
    (inquiry : Inquiry) : s.asked store inquiry = s'.asked store' inquiry := by
  cases hs with
  | collection hstore =>
    cases inquiry with
    | query filter => rw [asked, asked, hstore]
    | find filter => rw [asked, asked, hstore]
    | _ => rfl
  | reader hstore =>
    cases inquiry with
    | query filter => rw [asked, asked, hstore]
    | _ => rfl
  | stage hj =>
    cases inquiry with
    | query filter =>
      obtain ⟨p, h, h', rfl, rfl, hstore⟩ := hj
      exact congrArg (fun docs => some (answer docs filter)) hstore
    | find filter => rfl
    | resolve doc =>
      have hfound := Join.found_congr hj
      obtain ⟨p, h, h', rfl, rfl, -⟩ := hj
      exact congrArg some (hfound _)
    | execute docs => exact congrArg some (Join.rows_congr (.cons hj .nil) docs)
  | pipeline hjoins =>
    cases inquiry with
    | execute docs => exact congrArg some (Join.rows_congr hjoins docs)
    | _ => rfl

end Share

end

end DocStore
