import DocStore.Proofs.Registry

/-!
# The journal as an audit of the registry

Changes of the registry are noted as records of their own. Replayed in order the records tell which
names are registered, but for one thing: a name that is resolved, and created because this is asked
for, is registered without a record.

* `audited` are the names that the records of a journal leave registered.
* `Action.Minor` says that an action notes nothing of the importance of a record. All work on
  documents is of this kind.
* `Client.step_records` says which record each request leaves, `Client.mem_audit_step` and
  `Client.missed_step` what this means for the audit of one name.
* `Client.audit_run` is the main statement.
-/

namespace DocStore

/-! ## Records and their replay -/

/-- Whether an event is a record: one of the database itself that is more than a diagnosis. -/
def Event.isRecord (event : Event) : Bool :=
  event.level = .info && event.target = "aggrelite::database"

/-- The records of a journal, in order. -/
def records (journal : List Event) : List Event := journal.filter Event.isRecord

/-- The names that are registered after a change that is recorded. -/
def Event.replayed (names : Catalog Unit) : Event → Catalog Unit
  | collectionCreated _ name => names.insert name ()
  | collectionDropped _ name => names.erase name
  | _ => names

/-- The names that the records of a journal leave registered, from none on. -/
def audited (journal : List Event) : List String :=
  Catalog.names ((records journal).foldl Event.replayed [])

@[simp] theorem records_append (journal more : List Event) :
    records (journal ++ more) = records journal ++ records more := List.filter_append ..

theorem records_of_minor {events : List Event} (h : ∀ event ∈ events, event.level ≠ .info) :
    records events = [] :=
  List.filter_eq_nil_iff.2 fun event he => by simp [Event.isRecord, h event he]

section

variable {journal journal' : List Event} {database name : String}

theorem audited_congr (h : records journal' = records journal) :
    audited journal' = audited journal := by rw [audited, h, audited]

theorem audited_created
    (h : records journal' = records journal ++ [.collectionCreated database name])
    (other : String) :
    other ∈ audited journal' ↔ other = name ∨ other ∈ audited journal := by
  rw [audited, h, List.foldl_append, Catalog.mem_names_iff, audited, Catalog.mem_names_iff]
  show (Catalog.find? (Catalog.insert _ name ()) other).isSome ↔ _
  by_cases hne : name = other
  · subst hne
    simp
  · simp [hne, Ne.symm hne]

theorem audited_dropped
    (h : records journal' = records journal ++ [.collectionDropped database name])
    (other : String) :
    other ∈ audited journal' ↔ other ≠ name ∧ other ∈ audited journal := by
  rw [audited, h, List.foldl_append, Catalog.mem_names_iff, audited, Catalog.mem_names_iff]
  show (Catalog.find? (Catalog.erase _ name) other).isSome ↔ _
  by_cases hne : name = other
  · subst hne
    simp
  · simp [hne, Ne.symm hne]

/-- Audited names are in order. -/
theorem pairwise_audited (journal : List Event) : (audited journal).Pairwise (· < ·) := by
  rw [audited]
  generalize records journal = events
  induction events using List.reverseRecOn with
  | nil => exact .nil
  | append_singleton events event ih =>
    rw [List.foldl_append]
    cases event with
    | collectionCreated _ name => exact Catalog.pairwise_names_insert ih name ()
    | collectionDropped _ name => exact Catalog.pairwise_names_erase ih name
    | _ => exact ih

end

/-! ## Work that leaves no record -/

/-- What has been noted since is of less importance than a record. -/
def Database.Minor (db db' : Database) : Prop :=
  ∃ events : List Event, (∀ event ∈ events, event.level ≠ .info) ∧
    db'.journal = db.journal ++ events

namespace Database.Minor

variable {db db' db'' : Database}

theorem refl (db : Database) : db.Minor db := ⟨[], nofun, (List.append_nil _).symm⟩

theorem trans (h : db.Minor db') (h' : db'.Minor db'') : db.Minor db'' := by
  obtain ⟨events, hlow, hevents⟩ := h
  obtain ⟨more, hlow', hmore⟩ := h'
  refine ⟨events ++ more, fun event he => ?_, by rw [hmore, hevents, List.append_assoc]⟩
  exact (List.mem_append.1 he).elim (hlow event) (hlow' event)

theorem note (db : Database) {event : Event} (h : event.level ≠ .info) : db.Minor (db.note event) :=
  ⟨[event], by simpa using h, rfl⟩

theorem records (h : db.Minor db') : records db'.journal = records db.journal := by
  obtain ⟨events, hlow, hevents⟩ := h
  rw [hevents, records_append, records_of_minor hlow, List.append_nil]

end Database.Minor

/-- What is looked for leaves no record. -/
theorem Database.Widens.minor {db db' : Database} (hw : db.Widens db') : db.Minor db' := hw.journal

/-- Whether an action notes nothing of the importance of a record. -/
def Action.Minor {α : Type} (action : Action Database α) : Prop :=
  ∀ db : Database, db.Minor (action.on db).2

namespace Action.Minor

variable {α β : Type}

theorem pure (a : α) : Minor (Pure.pure a) := fun db => .refl db

theorem bind {action : Action Database α} {next : α → Action Database β} (h : action.Minor)
    (hn : ∀ a, (next a).Minor) : (action >>= next).Minor := by
  intro db
  have hdb := h db
  cases hon : action.on db with
  | mk result db' =>
    rw [hon] at hdb
    cases result with
    | error e =>
      rw [Action.on_bind_error hon]
      exact hdb
    | ok a =>
      rw [Action.on_bind_ok hon]
      exact hdb.trans (hn a db')

theorem map {action : Action Database α} (f : α → β) (h : action.Minor) : (f <$> action).Minor := by
  rw [← bind_pure_comp]
  exact h.bind fun a => pure (f a)

theorem note {event : Event} (h : event.level ≠ .info) :
    Minor (modify (Journal.note event) : Action Database PUnit) := fun db => .note db h

end Action.Minor

theorem Database.query_minor (name : String) (h : Handle) (filter : Document) :
    ((target name h).query filter).Minor := by
  intro db
  show db.Minor ((Action.ofStep fun db : Database => db.query h filter).on db).2
  rw [Action.on_ofStep, query]
  cases Filter.ofDocument filter with
  | ok f => exact .note db (by simp [Event.level])
  | error fault => exact .refl db

namespace Lookup

variable {l : Lookup Database}

theorem resolve_minor (h : ∀ filter, (l.target.query filter).Minor) (doc : Document) :
    (l.resolve doc).Minor := by
  rw [resolve, fetch_eq]
  generalize (doc.gather? l.localField).getD .null = value
  induction value.leaves with
  | nil => exact .pure []
  | cons leaf rest ih =>
    have hmatching : (l.matching leaf).Minor := (h _).bind fun cursor => .pure _
    exact hmatching.bind fun found => ih.bind fun more => .pure _

theorem join_minor (h : ∀ filter, (l.target.query filter).Minor) (doc : Document) :
    (l.join doc).Minor := by
  refine (resolve_minor h doc).bind fun found => ?_
  split
  · exact (Action.Minor.note (by simp [Event.level])).bind fun _ => .pure none
  · exact (Action.Minor.note (by simp [Event.level])).bind fun _ => .pure (some _)

end Lookup

theorem Stage.chain_minor {stages : List (Stage Database)}
    (h : ∀ stage ∈ stages, ∀ doc, (stage.process doc).Minor) (doc : Document) :
    (Stage.chain stages doc).Minor := by
  induction stages generalizing doc with
  | nil => exact .pure (some doc)
  | cons stage rest ih =>
    obtain ⟨hfirst, hrest⟩ := List.forall_mem_cons.1 h
    refine (hfirst doc).bind fun out => ?_
    cases out with
    | none => exact .pure none
    | some out => exact ih hrest out

theorem Pipeline.execute_minor {p : Pipeline Database}
    (h : ∀ stage ∈ p.stages, ∀ doc, (stage.process doc).Minor) (docs : List Document) :
    (p.execute docs).Minor := by
  induction docs with
  | nil =>
    rw [execute_nil]
    exact .pure []
  | cons doc rest ih =>
    rw [execute_cons]
    refine (Stage.chain_minor h doc).bind fun out => ?_
    cases out with
    | none => exact ih
    | some out => exact ih.bind fun more => .pure (out :: more)

theorem Join.query_minor (j : Join) (filter : Document) :
    ((j.lookup : Lookup Database).target.query filter).Minor :=
  Database.query_minor j.source j.target filter

theorem Join.execute_minor (joins : List Join) (docs : List Document) :
    (Pipeline.execute ⟨Join.stages joins⟩ docs : Action Database (List Document)).Minor := by
  refine Pipeline.execute_minor (fun stage hstage => ?_) docs
  obtain ⟨j, -, rfl⟩ := List.mem_map.1 hstage
  exact Lookup.join_minor j.query_minor

/-- Whatever is held, asking it leaves no record. -/
theorem Share.asked_minor (s : Share) {inquiry : Inquiry} {action : Action Database (List Document)}
    (h : s.holding.asked inquiry = some action) : action.Minor := by
  cases s with
  | collection k =>
    cases inquiry with
    | query filter =>
      cases h
      exact (Database.query_minor "" k filter).map _
    | find filter =>
      cases h
      exact .map _ fun db => .note db (by simp [Event.level])
    | resolve doc => cases h
    | execute docs => cases h
  | reader name k =>
    cases inquiry with
    | query filter =>
      cases h
      exact (Database.query_minor name k filter).map _
    | _ => cases h
  | stage j =>
    cases inquiry with
    | query filter =>
      cases h
      exact (j.query_minor filter).map _
    | find filter => cases h
    | resolve doc =>
      cases h
      exact Lookup.resolve_minor j.query_minor doc
    | execute docs =>
      cases h
      exact Join.execute_minor [j] docs
  | pipeline joins =>
    cases inquiry with
    | execute docs =>
      cases h
      exact Join.execute_minor joins docs
    | _ => cases h

namespace Client

/-! ## The records of a request -/

/-- The records that a request leaves. -/
def recorded (c : Client) : Request → Response → List Event
  | .create name, .given => [.collectionCreated c.database.name name]
  | .drop name, .dropped true => [.collectionDropped c.database.name name]
  | _, _ => []

section

variable {c : Client} {r : Request} {l : Ledger} {n : String}

/-- What a request leaves that leaves no record. -/
theorem records_of_none {response : Response} {db : Database} (hnone : c.recorded r response = [])
    (hdb : records db.journal = records c.database.journal) :
    records db.journal = records c.database.journal ++ c.recorded r response := by
  rw [hnone, hdb, List.append_nil]

theorem records_create (c : Client) (name : String) :
    records (c.step (.create name)).2.database.journal =
      records c.database.journal ++ c.recorded (.create name) (c.step (.create name)).1 := by
  obtain ⟨-, hstep⟩ | ⟨-, -, hstep⟩ | ⟨-, -, hstep⟩ := c.create_cases name
  · rw [hstep]
    exact records_of_none rfl rfl
  · rw [hstep]
    exact records_of_none rfl rfl
  · rw [hstep]
    exact records_append ..

theorem records_drop (c : Client) (name : String) :
    records (c.step (.drop name)).2.database.journal =
      records c.database.journal ++ c.recorded (.drop name) (c.step (.drop name)).1 := by
  obtain ⟨-, hstep⟩ | ⟨-, hstep⟩ := c.drop_cases name
  · rw [hstep]
    exact records_of_none rfl rfl
  · rw [hstep]
    exact records_append ..

theorem records_get (c : Client) (name : String) :
    records (c.step (.get name)).2.database.journal =
      records c.database.journal ++ c.recorded (.get name) (c.step (.get name)).1 := by
  refine records_of_none rfl ?_
  rw [step]
  cases c.database.get? name <;> rfl

/-- A resolution leaves no record, even where it registers the name. -/
theorem records_resolve (c : Client) (name : String) (create : Bool) :
    records (c.step (.resolve name create)).2.database.journal = records c.database.journal ++
      c.recorded (.resolve name create) (c.step (.resolve name create)).1 := by
  refine records_of_none rfl ?_
  obtain ⟨-, hstep⟩ | ⟨-, -, -, hstep⟩ | ⟨-, -, h, db, hw, -, hstep⟩ :=
    c.resolve_cases name create
  · rw [hstep]
  · rw [hstep]
    rfl
  · rw [hstep]
    exact hw.minor.records

theorem records_build (c : Client) (configuration : Document) :
    records (c.step (.build configuration)).2.database.journal = records c.database.journal ++
      c.recorded (.build configuration) (c.step (.build configuration)).1 := by
  obtain ⟨h, db, hbuild, hw, -⟩ := Lookup.build_on configuration c.database
  refine records_of_none rfl ?_
  rw [step, obtain_database hbuild, hw.minor.records]

theorem records_parse (c : Client) (specs : List Document) :
    records (c.step (.parse specs)).2.database.journal =
      records c.database.journal ++ c.recorded (.parse specs) (c.step (.parse specs)).1 := by
  obtain ⟨joins, db, hbuild, hw, -⟩ := Pipeline.build_on specs c.database
  refine records_of_none rfl ?_
  rw [step, obtain_database hbuild, hw.minor.records]

theorem records_insert (c : Client) (i : Nat) (docs : List Document) :
    records (c.step (.insert i docs)).2.database.journal =
      records c.database.journal ++ c.recorded (.insert i docs) (c.step (.insert i docs)).1 := by
  refine records_of_none rfl ?_
  obtain hstep | ⟨h, -, hstep⟩ := c.insert_cases i docs
  · rw [hstep]
  · rw [hstep]
    rfl

theorem records_ask (ht : Told c l) (i : Nat) (inquiry : Inquiry) :
    records (c.step (.ask i inquiry)).2.database.journal =
      records c.database.journal ++ c.recorded (.ask i inquiry) (c.step (.ask i inquiry)).1 := by
  refine records_of_none rfl ?_
  obtain hstep | ⟨t, action, hasked, hstep⟩ := ask_cases ht i inquiry
  · rw [hstep]
  · rw [hstep]
    exact (t.asked_minor hasked c.database).records

/-- **The records that each request leaves.** -/
theorem step_records (ht : Told c l) (r : Request) :
    records (c.step r).2.database.journal =
      records c.database.journal ++ c.recorded r (c.step r).1 := by
  cases r with
  | create name => exact c.records_create name
  | drop name => exact c.records_drop name
  | get name => exact c.records_get name
  | resolve name create => exact c.records_resolve name create
  | build configuration => exact c.records_build configuration
  | parse specs => exact c.records_parse specs
  | insert i docs => exact c.records_insert i docs
  | ask i inquiry => exact records_ask ht i inquiry

/-! ## The audit of one name -/

/-- The names that the records of a client's database leave registered. -/
def audit (c : Client) : List String := audited c.database.journal

/-- A request that leaves no record leaves the audit as it is. -/
theorem audit_of_none (ht : Told c l) (hnone : c.recorded r (c.step r).1 = []) :
    (c.step r).2.audit = c.audit := by
  have hrecords := step_records ht r
  rw [hnone, List.append_nil] at hrecords
  exact audited_congr hrecords

theorem mem_audit_create (c : Client) (name n : String) :
    n ∈ (c.step (.create name)).2.audit ↔
      (name = n ∧ (c.step (.create name)).1 = .given) ∨ n ∈ c.audit := by
  have hrecords := c.records_create name
  obtain ⟨-, hstep⟩ | ⟨-, -, hstep⟩ | ⟨-, -, hstep⟩ := c.create_cases name
  · simp [hstep]
  · simp [hstep]
  · rw [hstep] at hrecords ⊢
    rw [audit, audited_created hrecords n, audit]
    simp [eq_comm]

theorem mem_audit_drop (hsub : ∀ n ∈ c.audit, n ∈ c.database.names) (name n : String) :
    n ∈ (c.step (.drop name)).2.audit ↔ n ∈ c.audit ∧ name ≠ n := by
  have hrecords := c.records_drop name
  obtain ⟨hget, hstep⟩ | ⟨-, hstep⟩ := c.drop_cases name
  · rw [hstep]
    refine (and_iff_left_of_imp fun hn hname => ?_).symm
    -- The name is not registered, so that it is not audited.
    subst hname
    have hregistered := Database.mem_names_iff.1 (hsub name hn)
    rw [hget] at hregistered
    cases hregistered
  · rw [hstep] at hrecords ⊢
    rw [audit, audited_dropped hrecords n, audit]
    simp [and_comm, eq_comm]

/-- What a request does to the audit of a name. -/
theorem mem_audit_step (ht : Told c l) (hsub : ∀ n ∈ c.audit, n ∈ c.database.names) (r : Request)
    (n : String) :
    n ∈ (c.step r).2.audit ↔
      (r = .create n ∧ (c.step r).1 = .given) ∨ (n ∈ c.audit ∧ r ≠ .drop n) := by
  cases r with
  | create name => simp [mem_audit_create]
  | drop name => simp [mem_audit_drop hsub]
  | _ =>
    rw [audit_of_none ht]
    · simp
    · rfl

/-- What is audited is registered. -/
theorem audit_subset_step (ht : Told c l) (hsub : ∀ n ∈ c.audit, n ∈ c.database.names)
    (r : Request) : ∀ n ∈ (c.step r).2.audit, n ∈ (c.step r).2.database.names := by
  intro n hn
  rw [(step_effect ht r).mem_names_iff]
  rcases (mem_audit_step ht hsub r n).1 hn with ⟨hr, hgiven⟩ | ⟨hold, hr⟩
  · exact .inl ⟨.inl hr, hgiven⟩
  · exact .inr ⟨hsub n hold, hr⟩

/-- A name is missed by the audit once a resolution has registered it, until it is dropped. -/
theorem missed_step (ht : Told c l) (hsub : ∀ n ∈ c.audit, n ∈ c.database.names) (r : Request)
    (n : String) :
    n ∈ (c.step r).2.database.names ∧ n ∉ (c.step r).2.audit ↔
      (r = .resolve n true ∧ (c.step r).1 = .given ∧ n ∉ c.database.names) ∨
        ((n ∈ c.database.names ∧ n ∉ c.audit) ∧ r ≠ .drop n) := by
  have hcreate : r = .create n → (c.step r).1 = .given → n ∉ c.database.names := by
    rintro rfl hgiven
    have hstep := c.step_create n
    rw [hgiven] at hstep
    cases hstep with
    | given h => exact h.2
  rw [(step_effect ht r).mem_names_iff, mem_audit_step ht hsub, Request.Registers]
  constructor
  · rintro ⟨(⟨hr | hr, hgiven⟩ | ⟨hn, hr⟩), hmissed⟩
    · exact absurd (.inl ⟨hr, hgiven⟩) hmissed
    · by_cases hn : n ∈ c.database.names
      · refine .inr ⟨⟨hn, fun hold => hmissed (.inr ⟨hold, ?_⟩)⟩, ?_⟩ <;> simp [hr]
      · exact .inl ⟨hr, hgiven, hn⟩
    · exact .inr ⟨⟨hn, fun hold => hmissed (.inr ⟨hold, hr⟩)⟩, hr⟩
  · rintro (⟨hr, hgiven, hn⟩ | ⟨⟨hn, hold⟩, hr⟩)
    · refine ⟨.inl ⟨.inr hr, hgiven⟩, ?_⟩
      rintro (⟨hr', -⟩ | ⟨hold, -⟩)
      · rw [hr] at hr'
        cases hr'
      · exact hn (hsub n hold)
    · refine ⟨.inr ⟨hn, hr⟩, ?_⟩
      rintro (⟨hr', hgiven⟩ | ⟨hold', -⟩)
      · exact hcreate hr' hgiven hn
      · exact hold hold'

end

/-! ## Runs -/

theorem audit_subset_run (name : String) (requests : List Request) :
    ∀ n ∈ ((initial name).run requests).2.audit,
      n ∈ ((initial name).run requests).2.database.names := by
  induction requests using List.reverseRecOn with
  | nil => exact nofun
  | append_singleton requests r ih =>
    rw [run_concat]
    exact audit_subset_step ((Told.initial name).run requests).2 ih r

/-- The names that the audit misses after requests: those that a resolution has registered and none
of the requests has dropped since. -/
theorem missed_run (name : String) (requests : List Request) (n : String) :
    (n ∈ ((initial name).run requests).2.database.names ∧
        n ∉ ((initial name).run requests).2.audit) ↔
      ∃ before after, requests = before ++ .resolve n true :: after ∧
        (((initial name).run before).2.step (.resolve n true)).1 = .given ∧
        n ∉ ((initial name).run before).2.database.names ∧ .drop n ∉ after := by
  have hrun : (n ∈ ((initial name).run requests).2.database.names ∧
        n ∉ ((initial name).run requests).2.audit) ↔
      ∃ before r after, requests = before ++ r :: after ∧
        (r = .resolve n true ∧ (((initial name).run before).2.step r).1 = .given ∧
          n ∉ ((initial name).run before).2.database.names) ∧ .drop n ∉ after := by
    induction requests using List.reverseRecOn with
    | nil =>
      refine iff_of_false (fun h => List.not_mem_nil h.1) ?_
      rintro ⟨before, r, after, hrequests, -⟩
      cases before <;> cases hrequests
    | append_singleton requests r ih =>
      rw [run_concat,
        missed_step ((Told.initial name).run requests).2 (audit_subset_run name requests), ih,
        exists_since_concat requests r n]
  rw [hrun]
  constructor
  · rintro ⟨before, _, after, hrequests, ⟨rfl, hgiven, hn⟩, hafter⟩
    exact ⟨before, after, hrequests, hgiven, hn, hafter⟩
  · rintro ⟨before, after, hrequests, hgiven, hn, hafter⟩
    exact ⟨before, _, after, hrequests, ⟨rfl, hgiven, hn⟩, hafter⟩

/-- **What the journal says of the registry after any requests.** Every creation and every drop of a
collection leaves its record, and nothing else leaves one. The names that the records leave
registered, replayed in order, are registered. The others that are registered are those that a
resolution has registered, and none of the requests has dropped since; where no resolution has
registered a name that was not registered, the records tell the names exactly. -/
theorem audit_run (name : String) (requests : List Request) :
    let c := ((initial name).run requests).2
    (∀ r, records (c.step r).2.database.journal =
      records c.database.journal ++ c.recorded r (c.step r).1) ∧
      (∀ n ∈ c.audit, n ∈ c.database.names) ∧
      (∀ n, n ∈ c.database.names ∧ n ∉ c.audit ↔
        ∃ before after, requests = before ++ .resolve n true :: after ∧
          (((initial name).run before).2.step (.resolve n true)).1 = .given ∧
          n ∉ ((initial name).run before).2.database.names ∧ .drop n ∉ after) ∧
      ((∀ before n after, requests = before ++ .resolve n true :: after → Database.Proper n →
        n ∈ ((initial name).run before).2.database.names) → c.audit = c.database.names) := by
  intro c
  have hsub := audit_subset_run name requests
  have hmissed := missed_run name requests
  refine ⟨step_records ((Told.initial name).run requests).2, hsub, hmissed, fun hresolved => ?_⟩
  have hall : ∀ n ∈ c.database.names, n ∈ c.audit := by
    intro n hn
    by_contra hnot
    obtain ⟨before, after, hrequests, hgiven, hfree, -⟩ := (hmissed n).1 ⟨hn, hnot⟩
    have hstep := ((initial name).run before).2.step_resolve n true
    rw [hgiven] at hstep
    cases hstep with
    | given hproper => exact hfree (hresolved before n after hrequests hproper)
  -- Both are in order, and the same names are in both.
  have hnames := (run_registered name requests).sorted
  have haudit := pairwise_audited c.database.journal
  refine List.Perm.eq_of_pairwise (fun a b _ _ hab hba => absurd hab (lt_asymm hba)) haudit hnames
    ?_
  refine (List.perm_ext_iff_of_nodup (haudit.imp ne_of_lt) (hnames.imp ne_of_lt)).2 fun n => ?_
  exact ⟨hsub n, hall n⟩

/-- A collection that a resolution has registered is in no record. -/
theorem audit_misses :
    ¬ ∀ (name : String) (requests : List Request),
      ((initial name).run requests).2.audit = ((initial name).run requests).2.database.names := by
  intro h
  have hnames := h "db" [.resolve "orders" true]
  revert hnames
  decide

end Client

end DocStore
