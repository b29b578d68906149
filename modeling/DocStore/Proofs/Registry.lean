import DocStore.Proofs.Catalogs
import DocStore.Proofs.Incarnations

/-!
# The registry of a database

What holds of the registered names at any time, whatever a client has requested, and what a single
request can change.

* `Database.Registered` is what holds of the names: they are proper, in order, and each is the name
  of its collection. It stays true by one lemma for each way in which a database changes.
* `Client.Effect` is what a request can do to a database. `Client.step_effect` says that it can do
  nothing else, put together from one lemma for each request; everything about requests is read off
  it, by `Client.Effect.registered`, `Client.Effect.mem_names_iff`, `Client.Effect.unchanged` and
  `Client.Effect.frame`.
* `Client.mem_names_run` says which names are registered after several requests.
* `Client.registry_holds` is the main statement.
-/

namespace DocStore

/-! ## Databases that hold the same -/

namespace Database

/-- A name that is not empty and holds neither a dollar sign nor the character of code zero. -/
def Proper (name : String) : Prop := name ≠ "" ∧ '$' ∉ name.toList ∧ '\x00' ∉ name.toList

theorem validName_iff {name : String} : validName name = true ↔ Proper name := by
  simp [validName, Proper, and_assoc]

/-- The same names are registered for the same collections, and the collections hold the same. -/
def Unchanged (db db' : Database) : Prop :=
  db'.registry = db.registry ∧ contents db' = contents db

/-- The same names are registered, and the collections are the same but for new ones that hold
nothing. -/
structure Keeps (db db' : Database) : Prop where
  registry : db'.registry = db.registry
  incarnations : ∃ names : List String,
    db'.incarnations = db.incarnations ++ names.map Collection.empty

/-- What holds of the registered names. -/
structure Registered (db : Database) : Prop where
  sorted : db.names.Pairwise (· < ·)
  proper : ∀ name ∈ db.names, Proper name
  /-- A registered collection is there, and has the name that it is registered under. -/
  own : ∀ name h, db.get? name = some h →
    h.index < db.incarnations.length ∧ (db.collection h).name = name

section

variable {db db' : Database} {name : String} {h k : Handle}

theorem mem_names_iff : name ∈ db.names ↔ (db.get? name).isSome := Catalog.mem_names_iff

/-- A collection is the same in a database that has more of them. -/
theorem collection_append {more : List Collection}
    (hmore : db'.incarnations = db.incarnations ++ more) (hlt : h.index < db.incarnations.length) :
    db'.collection h = db.collection h := by
  rw [collection, collection, hmore, List.getElem?_append_left hlt]

/-- Collections that hold nothing make no difference to what is held. -/
theorem contents_append (names : List String)
    (hnames : db'.incarnations = db.incarnations ++ names.map Collection.empty) :
    contents db' = contents db := by
  funext h
  show (db'.collection h).documents = (db.collection h).documents
  by_cases hlt : h.index < db.incarnations.length
  · rw [collection_append hnames hlt]
  · rw [Nat.not_lt] at hlt
    rw [collection, collection, hnames, List.getElem?_append_right hlt, List.getElem?_map,
      List.getElem?_eq_none hlt]
    cases names[h.index - db.incarnations.length]? <;> rfl

namespace Keeps

theorem refl (db : Database) : db.Keeps db := ⟨rfl, [], by simp⟩

theorem noted (db : Database) (events : List Event) : db.Keeps (db.noted events) :=
  ⟨rfl, [], by simp [Database.noted]⟩

theorem unchanged (hk : db.Keeps db') : db.Unchanged db' := by
  obtain ⟨names, hnames⟩ := hk.incarnations
  exact ⟨hk.registry, contents_append names hnames⟩

end Keeps

theorem Widens.keeps (hw : db.Widens db') : db.Keeps db' := ⟨hw.registry, hw.incarnations⟩

/-! ### Documents entered -/

theorem collection_insert_of_ne (hne : h ≠ k) (docs : List Document) :
    (db.insert h docs).collection k = db.collection k := by
  have hindex : h.index ≠ k.index := fun heq => hne (by cases h; cases k; exact congrArg _ heq)
  rw [collection, collection, insert, List.getElem?_modify_ne _ _ hindex]

@[simp] theorem name_collection_insert (docs : List Document) :
    ((db.insert h docs).collection k).name = (db.collection k).name := by
  rw [collection, collection, insert, List.getElem?_modify]
  cases db.incarnations[k.index]? with
  | none => rfl
  | some c =>
    by_cases hindex : h.index = k.index
    · simp [hindex, Collection.insert]
    · simp [hindex]

/-! ### What holds of the registered names -/

namespace Registered

theorem empty (name : String) : (Database.empty name).Registered := by
  refine ⟨.nil, fun other hother => absurd hother List.not_mem_nil, fun other h hget => ?_⟩
  cases hget

theorem keep (hdb : db.Registered) (hk : db.Keeps db') : db'.Registered := by
  have hnames : db'.names = db.names := congrArg Catalog.names hk.registry
  refine ⟨hnames ▸ hdb.sorted, hnames ▸ hdb.proper, fun name h hget => ?_⟩
  obtain ⟨names, hmore⟩ := hk.incarnations
  rw [get?_of_registry hk.registry] at hget
  obtain ⟨hlt, hname⟩ := hdb.own name h hget
  rw [collection_append hmore hlt, hmore, List.length_append]
  exact ⟨Nat.lt_add_right _ hlt, hname⟩

theorem register (hdb : db.Registered) (hv : validName name = true)
    (hregistry : db'.registry = db.registry.insert name ⟨db.incarnations.length⟩)
    (hincarnations : db'.incarnations = db.incarnations ++ [Collection.empty name]) :
    db'.Registered := by
  refine ⟨?_, fun other hother => ?_, fun other h hget => ?_⟩
  · rw [names, hregistry]
    exact Catalog.pairwise_names_insert hdb.sorted name _
  · rw [names, hregistry] at hother
    rcases Catalog.mem_names_insert hother with rfl | hother
    · exact validName_iff.1 hv
    · exact hdb.proper other hother
  · rw [get?, hregistry] at hget
    rw [hincarnations, List.length_append]
    by_cases hne : name = other
    · subst hne
      rw [Catalog.find?_insert_self] at hget
      cases hget
      rw [collection, hincarnations, List.getElem?_concat_length]
      exact ⟨Nat.lt_succ_self _, rfl⟩
    · rw [Catalog.find?_insert_of_ne _ _ hne] at hget
      obtain ⟨hlt, hname⟩ := hdb.own other h hget
      rw [collection_append hincarnations hlt]
      exact ⟨Nat.lt_add_right _ hlt, hname⟩

theorem unregister (hdb : db.Registered) (hregistry : db'.registry = db.registry.erase name)
    (hincarnations : db'.incarnations = db.incarnations) : db'.Registered := by
  refine ⟨?_, fun other hother => ?_, fun other h hget => ?_⟩
  · rw [names, hregistry]
    exact Catalog.pairwise_names_erase hdb.sorted name
  · rw [names, hregistry] at hother
    exact hdb.proper other ((List.filter_sublist.map Prod.fst).subset hother)
  · rw [get?, hregistry] at hget
    rw [collection, hincarnations]
    by_cases hne : name = other
    · subst hne
      rw [Catalog.find?_erase_self] at hget
      cases hget
    · rw [Catalog.find?_erase_of_ne _ hne] at hget
      exact hdb.own other h hget

theorem enter (hdb : db.Registered) (h : Handle) (docs : List Document) :
    (db.insert h docs).Registered := by
  refine ⟨hdb.sorted, hdb.proper, fun other k hget => ?_⟩
  rw [name_collection_insert, insert, List.length_modify]
  exact hdb.own other k hget

end Registered

end

end Database

/-! ## What a request can do -/

/-- Whether a request is to register a name where it is not registered. -/
def Request.Registers (name : String) (r : Request) : Prop :=
  r = .create name ∨ r = .resolve name true

theorem Request.Registers.ne_drop {name : String} {r : Request} (hr : r.Registers name)
    (other : String) : r ≠ .drop other := by
  rintro rfl
  rcases hr with hr | hr <;> cases hr

/-- Whether a request is only to look something up. -/
def Request.Reads : Request → Prop
  | .get _ | .resolve _ false | .build _ | .parse _ | .ask _ _ => True
  | _ => False

/-- Whether a response says that nothing came of a request. -/
def Response.Fails : Response → Prop
  | .refused _ | .nothing | .dropped false | .documents (.error _) => True
  | _ => False

/-- A response gives something where a condition holds, and refuses otherwise. -/
inductive Response.GivenWhen (p : Prop) : Response → Prop
  | given : p → GivenWhen p .given
  | refused (e : Failure) : ¬ p → GivenWhen p (.refused e)

namespace Client

/-- The name that a request is about. Documents are entered into a collection of a name. -/
def subject (c : Client) : Request → Option String
  | .create name | .drop name | .get name | .resolve name _ => some name
  | .insert i _ =>
    match c.held[i]? with
    | some (.collection h) => some (c.database.collection h).name
    | _ => none
  | .build _ | .parse _ | .ask _ _ => none

/-- What a request can do to the database of a client. -/
inductive Effect (c : Client) (r : Request) : Response → Database → Prop
  /-- Nothing, which includes that a name is to be registered that is, or dropped that is not. -/
  | keep {response : Response} {db : Database} : c.database.Keeps db →
      (∀ name, r.Registers name → response = .given → (c.database.get? name).isSome) →
      (∀ name, r = .drop name → c.database.get? name = none) → Effect c r response db
  | register {name : String} {db : Database} : r.Registers name →
      Database.validName name = true → c.database.get? name = none →
      db.registry = c.database.registry.insert name ⟨c.database.incarnations.length⟩ →
      db.incarnations = c.database.incarnations ++ [Collection.empty name] → Effect c r .given db
  | drop {name : String} {db : Database} : r = .drop name →
      db.registry = c.database.registry.erase name →
      db.incarnations = c.database.incarnations → Effect c r (.dropped true) db
  | enter {i : Nat} {h : Handle} {docs : List Document} : r = .insert i docs →
      c.held[i]? = some (.collection h) → Effect c r .entered (c.database.insert h docs)

section

variable {c : Client} {r : Request} {response : Response} {db : Database} {l : Ledger}

/-- A request that only looks something up registers and drops no name. -/
theorem Effect.of_reads (hr : r.Reads) (hk : c.database.Keeps db) : Effect c r response db := by
  refine .keep hk (fun name hregisters => ?_) fun name hdrop => ?_
  · rcases hregisters with rfl | rfl <;> exact hr.elim
  · subst hdrop
    exact hr.elim

/-- A request that is refused, and drops no name. -/
theorem Effect.of_refused {e : Failure} (hr : ∀ name, r ≠ .drop name) :
    Effect c r (.refused e) c.database := by
  refine .keep (.refl _) (fun name _ hgiven => ?_) fun name hdrop => absurd hdrop (hr name)
  cases hgiven

/-! ### The effect of each request -/

/-- Whatever is held has a share, which is asked in its place. -/
theorem ask_cases (ht : Told c l) (i : Nat) (inquiry : Inquiry) :
    c.step (.ask i inquiry) = (.nothing, c) ∨
    ∃ (t : Share) (action : Action Database (List Document)),
      t.holding.asked inquiry = some action ∧ c.step (.ask i inquiry) =
        (.documents (action.on c.database).1, ⟨(action.on c.database).2, c.held⟩) := by
  obtain ⟨-, origins, hs⟩ := ht
  rw [step]
  obtain ⟨hk, -⟩ | ⟨t, -, hk, -⟩ := hs.held_cases i
  · rw [hk]
    exact .inl rfl
  · rw [hk, Option.bind_some]
    cases hasked : t.holding.asked inquiry with
    | none => exact .inl rfl
    | some action => exact .inr ⟨t, action, hasked, rfl⟩

theorem effect_create (c : Client) (name : String) :
    Effect c (.create name) (c.step (.create name)).1 (c.step (.create name)).2.database := by
  obtain ⟨-, hstep⟩ | ⟨-, -, hstep⟩ | ⟨hv, hget, hstep⟩ := c.create_cases name
  · rw [hstep]
    exact .of_refused (by simp)
  · rw [hstep]
    exact .of_refused (by simp)
  · rw [hstep]
    exact .register (.inl rfl) hv hget rfl rfl

theorem effect_drop (c : Client) (name : String) :
    Effect c (.drop name) (c.step (.drop name)).1 (c.step (.drop name)).2.database := by
  obtain ⟨hget, hstep⟩ | ⟨-, hstep⟩ := c.drop_cases name
  · rw [hstep]
    refine .keep (.refl _) (fun _ hr => absurd rfl (hr.ne_drop name)) fun other hother => ?_
    cases hother
    exact hget
  · rw [hstep]
    exact .drop rfl rfl rfl

theorem effect_get (c : Client) (name : String) :
    Effect c (.get name) (c.step (.get name)).1 (c.step (.get name)).2.database := by
  refine .of_reads trivial ?_
  rw [step]
  cases c.database.get? name <;> exact .refl _

theorem effect_resolve (c : Client) (name : String) (create : Bool) :
    Effect c (.resolve name create) (c.step (.resolve name create)).1
      (c.step (.resolve name create)).2.database := by
  obtain ⟨-, hstep⟩ | ⟨hv, rfl, hget, hstep⟩ | ⟨-, hfound, h, db, hw, -, hstep⟩ :=
    c.resolve_cases name create
  · rw [hstep]
    exact .of_refused (by simp)
  · rw [hstep]
    exact .register (.inr rfl) hv hget rfl rfl
  · rw [hstep]
    refine .keep hw.keeps (fun other hother _ => ?_) (by simp)
    rcases hother with hother | hother <;> cases hother
    exact hfound rfl

theorem effect_build (c : Client) (configuration : Document) :
    Effect c (.build configuration) (c.step (.build configuration)).1
      (c.step (.build configuration)).2.database := by
  obtain ⟨h, db, hbuild, hw, -⟩ := Lookup.build_on configuration c.database
  rw [step, obtain_database hbuild]
  exact .of_reads trivial hw.keeps

theorem effect_parse (c : Client) (specs : List Document) :
    Effect c (.parse specs) (c.step (.parse specs)).1 (c.step (.parse specs)).2.database := by
  obtain ⟨joins, db, hbuild, hw, -⟩ := Pipeline.build_on specs c.database
  rw [step, obtain_database hbuild]
  exact .of_reads trivial hw.keeps

theorem effect_insert (c : Client) (i : Nat) (docs : List Document) :
    Effect c (.insert i docs) (c.step (.insert i docs)).1
      (c.step (.insert i docs)).2.database := by
  obtain hstep | ⟨h, hheld, hstep⟩ := c.insert_cases i docs
  · rw [hstep]
    refine .keep (.refl _) (fun _ hr => ?_) (by simp)
    rcases hr with hr | hr <;> cases hr
  · rw [hstep]
    exact .enter rfl hheld

theorem effect_ask (ht : Told c l) (i : Nat) (inquiry : Inquiry) :
    Effect c (.ask i inquiry) (c.step (.ask i inquiry)).1
      (c.step (.ask i inquiry)).2.database := by
  refine .of_reads trivial ?_
  obtain hstep | ⟨t, action, hasked, hstep⟩ := ask_cases ht i inquiry
  · rw [hstep]
    exact .refl _
  · obtain ⟨events, hnoted⟩ := t.asked_noted hasked c.database
    rw [hstep, hnoted]
    exact .noted ..

/-- **What a request can do.** -/
theorem step_effect (ht : Told c l) (r : Request) :
    Effect c r (c.step r).1 (c.step r).2.database := by
  cases r with
  | create name => exact c.effect_create name
  | drop name => exact c.effect_drop name
  | get name => exact c.effect_get name
  | resolve name create => exact c.effect_resolve name create
  | build configuration => exact c.effect_build configuration
  | parse specs => exact c.effect_parse specs
  | insert i docs => exact c.effect_insert i docs
  | ask i inquiry => exact effect_ask ht i inquiry

/-! ### What is read off it -/

theorem registers_unique {name other : String} (hr : r.Registers name) (ho : r.Registers other) :
    other = name := by
  rcases hr with rfl | rfl <;> rcases ho with ho | ho <;> cases ho <;> rfl

namespace Effect

/-- What holds of the registered names stays true. -/
theorem registered (he : Effect c r response db) (hc : c.database.Registered) :
    db.Registered := by
  cases he with
  | keep hk _ _ => exact hc.keep hk
  | register _ hv _ hregistry hincarnations => exact hc.register hv hregistry hincarnations
  | drop _ hregistry hincarnations => exact hc.unregister hregistry hincarnations
  | enter _ _ => exact hc.enter ..

/-- The names that are registered after a request: one that it has registered, and those that were
registered before unless it has dropped them. -/
theorem mem_names_iff (he : Effect c r response db) (name : String) :
    name ∈ db.names ↔ (r.Registers name ∧ response = .given) ∨
      (name ∈ c.database.names ∧ r ≠ .drop name) := by
  rw [Database.mem_names_iff, Database.mem_names_iff]
  cases he with
  | keep hk hregisters hdrop =>
    rw [Database.get?_of_registry hk.registry]
    constructor
    · intro hname
      refine .inr ⟨hname, fun hr => ?_⟩
      rw [hdrop name hr] at hname
      cases hname
    · rintro (⟨hr, hgiven⟩ | ⟨hname, -⟩)
      · exact hregisters name hr hgiven
      · exact hname
  | @register other _ hr _ _ hregistry _ =>
    rw [Database.get?, hregistry]
    by_cases hne : other = name
    · subst hne
      simp [hr]
    · rw [Catalog.find?_insert_of_ne _ _ hne,
        or_iff_right fun h => hne (registers_unique hr h.1).symm]
      exact (and_iff_left (hr.ne_drop name)).symm
  | @drop other _ hr hregistry _ =>
    subst hr
    have hregisters : ¬ ((Request.drop other).Registers name ∧ Response.dropped true = .given) := by
      simp
    rw [Database.get?, hregistry, or_iff_right hregisters]
    by_cases hne : other = name
    · subst hne
      simp
    · rw [Catalog.find?_erase_of_ne _ hne]
      exact (and_iff_left fun h => hne (Request.drop.inj h)).symm
  | @enter i h docs hr _ =>
    subst hr
    have hregisters : ¬ ((Request.insert i docs).Registers name ∧ Response.entered = .given) := by
      simp
    rw [or_iff_right hregisters]
    exact (and_iff_left (by simp)).symm

/-- A request that only looks something up, or that nothing comes of, changes nothing. -/
theorem unchanged (he : Effect c r response db) (hr : r.Reads ∨ response.Fails) :
    c.database.Unchanged db := by
  cases he with
  | keep hk _ _ => exact hk.unchanged
  | register hregisters _ _ _ _ =>
    rcases hregisters with rfl | rfl <;> exact (or_self_iff.1 hr).elim
  | drop hdrop _ _ =>
    subst hdrop
    exact (or_self_iff.1 hr).elim
  | enter henter _ =>
    subst henter
    exact (or_self_iff.1 hr).elim

/-- A request about one name changes nothing of another. -/
theorem frame (he : Effect c r response db) {other : String} (hother : c.subject r ≠ some other) :
    db.get? other = c.database.get? other ∧
      ∀ h, (c.database.collection h).name = other → contents db h = contents c.database h := by
  cases he with
  | keep hk _ _ =>
    exact ⟨Database.get?_of_registry hk.registry other, fun h _ => congrFun hk.unchanged.2 h⟩
  | @register name _ hr _ _ hregistry hincarnations =>
    have hne : name ≠ other := by
      rintro rfl
      rcases hr with rfl | rfl <;> exact hother rfl
    rw [Database.get?, hregistry, Catalog.find?_insert_of_ne _ _ hne]
    exact ⟨rfl, fun h _ => congrFun (Database.contents_append [name] hincarnations) h⟩
  | @drop name _ hr hregistry hincarnations =>
    have hne : name ≠ other := by
      rintro rfl
      subst hr
      exact hother rfl
    rw [Database.get?, hregistry, Catalog.find?_erase_of_ne _ hne]
    refine ⟨rfl, fun h _ => ?_⟩
    show (db.collection h).documents = (c.database.collection h).documents
    rw [Database.collection, hincarnations, Database.collection]
  | @enter i k docs hr hk =>
    subst hr
    rw [subject, hk] at hother
    refine ⟨rfl, fun h hname => ?_⟩
    have hne : k ≠ h := by
      rintro rfl
      exact hother (congrArg some hname)
    exact congrArg Collection.documents (Database.collection_insert_of_ne hne docs)

end Effect

end

/-! ## Runs -/

@[simp] theorem run_concat (c : Client) (requests : List Request) (r : Request) :
    (c.run (requests ++ [r])).2 = ((c.run requests).2.step r).2 := by
  induction requests generalizing c with
  | nil => rfl
  | cons first rest ih => exact ih (c.step first).2

theorem run_registered (name : String) (requests : List Request) :
    ((initial name).run requests).2.database.Registered := by
  induction requests using List.reverseRecOn with
  | nil => exact .empty name
  | append_singleton requests r ih =>
    rw [run_concat]
    exact (step_effect ((Told.initial name).run requests).2 r).registered ih

/-- Something has happened at one of several requests and a name has not been dropped since. This is
so by the last request, or it was so before, and the last request does not drop the name. -/
theorem exists_since_concat {p : List Request → Request → Prop} (requests : List Request)
    (r : Request) (n : String) :
    (∃ before x after, requests ++ [r] = before ++ x :: after ∧ p before x ∧ .drop n ∉ after) ↔
      p requests r ∨
        (∃ before x after, requests = before ++ x :: after ∧ p before x ∧ .drop n ∉ after) ∧
          r ≠ .drop n := by
  constructor
  · rintro ⟨before, x, after, hrequests, hx, hafter⟩
    rcases List.eq_nil_or_concat' after with rfl | ⟨after, last, rfl⟩
    · obtain ⟨rfl, hlast⟩ := List.append_inj' hrequests rfl
      cases hlast
      exact .inl hx
    · have hconcat : requests ++ [r] = (before ++ x :: after) ++ [last] := by
        simpa using hrequests
      obtain ⟨rfl, hlast⟩ := List.append_inj' hconcat rfl
      cases hlast
      simp only [List.mem_append, List.mem_singleton, not_or] at hafter
      exact .inr ⟨⟨before, x, after, rfl, hx, hafter.1⟩, Ne.symm hafter.2⟩
  · rintro (hr | ⟨⟨before, x, after, rfl, hx, hafter⟩, hdrop⟩)
    · exact ⟨requests, r, [], rfl, hr, List.not_mem_nil⟩
    · refine ⟨before, x, after ++ [r], by simp, hx, ?_⟩
      simp [hafter, Ne.symm hdrop]

/-- The names that are registered after requests: those that one of the requests has registered and
none has dropped since. -/
theorem mem_names_run (name : String) (requests : List Request) (n : String) :
    n ∈ ((initial name).run requests).2.database.names ↔
      ∃ before r after, requests = before ++ r :: after ∧ r.Registers n ∧
        (((initial name).run before).2.step r).1 = .given ∧ .drop n ∉ after := by
  induction requests using List.reverseRecOn with
  | nil =>
    refine iff_of_false List.not_mem_nil ?_
    rintro ⟨before, r, after, hrequests, -⟩
    cases before <;> cases hrequests
  | append_singleton requests r ih =>
    have hsince := exists_since_concat (p := fun before r => r.Registers n ∧
      (((initial name).run before).2.step r).1 = .given) requests r n
    simp only [and_assoc] at hsince
    have heffect := step_effect ((Told.initial name).run requests).2 r
    rw [run_concat, heffect.mem_names_iff n, ih, hsince]

/-! ## Success -/

/-- A collection is created where its name is proper and not registered. -/
theorem step_create (c : Client) (name : String) :
    (c.step (.create name)).1.GivenWhen (Database.Proper name ∧ name ∉ c.database.names) := by
  rw [Database.mem_names_iff, ← Database.validName_iff]
  obtain ⟨hv, hstep⟩ | ⟨-, hget, hstep⟩ | ⟨hv, hget, hstep⟩ := c.create_cases name
  · rw [hstep]
    exact .refused _ (by simp [hv])
  · rw [hstep]
    exact .refused _ (by simp [hget])
  · rw [hstep]
    exact .given ⟨hv, by simp [hget]⟩

/-- The collection of a name is resolved where the name is proper. -/
theorem step_resolve (c : Client) (name : String) (create : Bool) :
    (c.step (.resolve name create)).1.GivenWhen (Database.Proper name) := by
  rw [← Database.validName_iff]
  obtain ⟨hv, hstep⟩ | ⟨hv, -, -, hstep⟩ | ⟨hv, -, h, db, -, -, hstep⟩ :=
    c.resolve_cases name create
  · rw [hstep]
    exact .refused _ (by simp [hv])
  · rw [hstep]
    exact .given hv
  · rw [hstep]
    exact .given hv

/-- **What holds of the registry after any requests.** Its names are proper and in order, each is
the name of its collection, and they are those that a request has registered and none has dropped
since. A collection is created where its name is proper and not registered, and resolved where its
name is proper. What fails or only looks something up changes neither the registry nor any
documents, and no more does a run of lookups. What is requested about one name changes nothing of
another. -/
theorem registry_holds (name : String) (requests : List Request) :
    let c := ((initial name).run requests).2
    c.database.Registered ∧
      (∀ n, n ∈ c.database.names ↔
        ∃ before r after, requests = before ++ r :: after ∧ r.Registers n ∧
          (((initial name).run before).2.step r).1 = .given ∧ .drop n ∉ after) ∧
      (∀ n, (c.step (.create n)).1.GivenWhen (Database.Proper n ∧ n ∉ c.database.names)) ∧
      (∀ n create, (c.step (.resolve n create)).1.GivenWhen (Database.Proper n)) ∧
      (∀ r, r.Reads ∨ (c.step r).1.Fails → c.database.Unchanged (c.step r).2.database) ∧
      (∀ joins docs,
        c.database.Unchanged ((Pipeline.execute ⟨Join.stages joins⟩ docs).on c.database).2) ∧
      ∀ r other, c.subject r ≠ some other →
        (c.step r).2.database.get? other = c.database.get? other ∧
          ∀ h, (c.database.collection h).name = other →
            contents (c.step r).2.database h = contents c.database h := by
  intro c
  have heffect : ∀ r, Effect c r (c.step r).1 (c.step r).2.database :=
    step_effect ((Told.initial name).run requests).2
  refine ⟨run_registered name requests, mem_names_run name requests, c.step_create, c.step_resolve,
    fun r => (heffect r).unchanged, fun joins docs => ?_, fun r other => (heffect r).frame⟩
  obtain ⟨db, hrun, events, rfl⟩ := Join.execute_comesTo joins docs c.database
  have hon : ((Pipeline.execute ⟨Join.stages joins⟩ docs).on c.database).2 =
      c.database.noted events := congrArg Prod.snd hrun
  rw [hon]
  exact (Database.Keeps.noted ..).unchanged

/-- Names that are registered, refused, looked for and dropped. -/
example :
    ((initial "shop").run [.create "orders", .create "items", .create "$items",
      .resolve "stock" false, .resolve "carts" true, .drop "items"]).2.database.names =
        ["carts", "orders"] := by decide

end Client

end DocStore
