import Mathlib.Data.List.Forall2
import DocStore.Proofs.Equijoin

/-!
# What a configuration makes

A stage is told by its configuration, but for the incarnations that its lookups stand in. Those are
told by the database that it is built on, which building leaves with the names that it has and the
documents that it holds.

* `Join.Plan` is what a configuration says of a lookup; `Join.Plan.read` and
  `Join.Plan.ofSpecification` read it without a database, or fail.
* `Database.Widens` says that a database has more incarnations, which hold nothing, and is otherwise
  as it was. `Database.StandsFor` says what stands for the collection of a name after it has been
  looked for.
* `Lookup.build_on_faulty`, `Lookup.build_on_unresolved` and `Lookup.build_on_resolved` say what
  building a lookup does with any resolver, by what becomes of the source.
* `Lookup.build_on` and `Pipeline.build_on` are the main statements: what building does on a
  database, whether it succeeds or fails.
-/

namespace DocStore

/-! ## Plans -/

/-- What a configuration says of a lookup. -/
structure Join.Plan where
  source : String
  localField : String
  foreignField : String
  resultField : String

namespace Join.Plan

/-- The lookup of a plan in an incarnation. -/
def join (p : Plan) (h : Handle) : Join :=
  ⟨p.source, p.localField, p.foreignField, p.resultField, h⟩

/-- A name that a collection may have. -/
def checkName (name : String) : Except Failure Unit :=
  if Database.validName name then .ok () else .error (.invalidName name)

/-- The plan that a configuration writes. The name of the source is checked as soon as it is
read. -/
def read (configuration : Document) : Except Failure Plan := do
  let source ← (Options.text configuration Lookup.stageName "from").mapError .specification
  checkName source
  let localField ←
    (Options.path configuration Lookup.stageName "localField").mapError .specification
  let foreignField ←
    (Options.path configuration Lookup.stageName "foreignField").mapError .specification
  let resultField ← (Options.text configuration Lookup.stageName "as").mapError .specification
  (Options.onlyKnown configuration Lookup.stageName Lookup.options).mapError .specification
  return ⟨source, localField, foreignField, resultField⟩

/-- The plan that a specification writes: a document of one field that names the stage and holds its
configuration. -/
def ofSpecification : Document → Except Failure Plan
  | [(name, body)] =>
    if name = Lookup.stageName then
      match body with
      | .document configuration => read configuration
      | _ => .error (.specification (.bodyNotDocument name body.typeName))
    else .error (.specification (.unknownStage name))
  | _ => .error (.specification .fieldCount)

/-- The plan that the options after the source complete. -/
def complete (configuration : Document) (source : String) : Except SpecificationFault Plan := do
  let localField ← Options.path configuration Lookup.stageName "localField"
  let foreignField ← Options.path configuration Lookup.stageName "foreignField"
  let resultField ← Options.text configuration Lookup.stageName "as"
  Options.onlyKnown configuration Lookup.stageName Lookup.options
  return ⟨source, localField, foreignField, resultField⟩

theorem bind_eq_ok {α β ε : Type} {result : Except ε α} {next : α → Except ε β} {b : β}
    (h : (result >>= next) = .ok b) : ∃ a, result = .ok a ∧ next a = .ok b := by
  cases result with
  | error e => cases h
  | ok a => exact ⟨a, rfl, h⟩

theorem mapError_eq_ok {α ε : Type} {result : Except ε α} {f : ε → Failure} {a : α}
    (h : result.mapError f = .ok a) : result = .ok a := by
  cases result with
  | error e => cases h
  | ok b => exact congrArg _ (Except.ok.inj h)

theorem map_eq_error_iff {α β ε : Type} {result : Except ε α} (f : α → β) {e : ε} :
    result.map f = .error e ↔ result = .error e := by
  cases result <;> simp [Except.map]

/-- The source of a plan is in its configuration. -/
theorem get?_from_of_read {configuration : Document} {p : Plan} (h : read configuration = .ok p) :
    configuration.get? "from" = some (.string p.source) := by
  obtain ⟨source, hsource, h⟩ := bind_eq_ok h
  obtain ⟨_, -, h⟩ := bind_eq_ok h
  obtain ⟨localField, -, h⟩ := bind_eq_ok h
  obtain ⟨foreignField, -, h⟩ := bind_eq_ok h
  obtain ⟨resultField, -, h⟩ := bind_eq_ok h
  obtain ⟨_, -, h⟩ := bind_eq_ok h
  cases h
  exact Options.text_eq_ok (mapError_eq_ok hsource)

theorem source_of_complete {configuration : Document} {source : String} {p : Plan}
    (h : complete configuration source = .ok p) : p.source = source := by
  obtain ⟨localField, -, h⟩ := bind_eq_ok h
  obtain ⟨foreignField, -, h⟩ := bind_eq_ok h
  obtain ⟨resultField, -, h⟩ := bind_eq_ok h
  obtain ⟨_, -, h⟩ := bind_eq_ok h
  cases h
  rfl

theorem mapError_bind {α β ε : Type} (result : Except ε α) (next : α → Except ε β)
    (f : ε → Failure) :
    (result >>= next).mapError f = result.mapError f >>= fun a => (next a).mapError f := by
  cases result <;> rfl

theorem read_of_error {configuration : Document} {fault : SpecificationFault}
    (h : Options.text configuration Lookup.stageName "from" = .error fault) :
    read configuration = .error (.specification fault) := by
  rw [read, h]
  rfl

/-- A plan with a source that is a text: its name is checked, and the other options complete it. -/
theorem read_of_ok {configuration : Document} {source : String}
    (h : Options.text configuration Lookup.stageName "from" = .ok source) :
    read configuration =
      checkName source >>= fun _ => (complete configuration source).mapError .specification := by
  rw [read, h]
  simp only [complete, mapError_bind]
  rfl

end Join.Plan

/-! ## Actions in sequence -/

namespace Action

variable {σ α β : Type} {action : Action σ α} {next : α → Action σ β} {s t : σ}

theorem on_bind_ok {a : α} (h : action.on s = (.ok a, t)) :
    (action >>= next).on s = (next a).on t := by
  show (ExceptT.bindCont next (action.on s).1).run (action.on s).2 = _
  rw [h]
  rfl

theorem on_bind_error {e : Failure} (h : action.on s = (.error e, t)) :
    (action >>= next).on s = (.error e, t) := by
  show (ExceptT.bindCont next (action.on s).1).run (action.on s).2 = _
  rw [h]
  rfl

theorem on_map {result : Except Failure α} (f : α → β) (h : action.on s = (result, t)) :
    (f <$> action).on s = (result.map f, t) := by
  rw [← bind_pure_comp]
  cases result with
  | error e => exact on_bind_error h
  | ok a => exact on_bind_ok h

theorem on_ofStep (step : σ → Except Failure (α × σ)) (s : σ) :
    (ofStep step).on s =
      match step s with
      | .ok (a, s') => (.ok a, s')
      | .error e => (.error e, s) := rfl

end Action

/-! ## Databases with more incarnations -/

namespace Database

theorem get?_of_registry {db db' : Database} (h : db'.registry = db.registry) (name : String) :
    db'.get? name = db.get? name := by
  rw [get?, h, get?]

/-- A database with more incarnations, none of them registered or holding a document. What is noted
meanwhile is of less importance than a change. -/
structure Widens (db db' : Database) : Prop where
  name : db'.name = db.name
  registry : db'.registry = db.registry
  incarnations : ∃ names : List String,
    db'.incarnations = db.incarnations ++ names.map Collection.empty
  journal : ∃ events : List Event,
    (∀ event ∈ events, event.level ≠ .info) ∧ db'.journal = db.journal ++ events

/-- What stands for the collection of a name in a database that has become a wider one since: its
registered incarnation, or one of the new ones where it has none. -/
def StandsFor (db : Database) (name : String) (h : Handle) (db' : Database) : Prop :=
  db.get? name = some h ∨
    db.get? name = none ∧ db.incarnations.length ≤ h.index ∧ h.index < db'.incarnations.length

namespace Widens

variable {db db' db'' : Database} {name : String} {h : Handle}

theorem refl (db : Database) : db.Widens db := ⟨rfl, rfl, ⟨[], by simp⟩, [], by simp⟩

theorem trans (h₁ : db.Widens db') (h₂ : db'.Widens db'') : db.Widens db'' := by
  obtain ⟨names, hnames⟩ := h₁.incarnations
  obtain ⟨more, hmore⟩ := h₂.incarnations
  obtain ⟨events, hlow, hevents⟩ := h₁.journal
  obtain ⟨others, hlow', hothers⟩ := h₂.journal
  refine ⟨h₂.name.trans h₁.name, h₂.registry.trans h₁.registry, ⟨names ++ more, ?_⟩,
    events ++ others, ?_, ?_⟩
  · rw [hmore, hnames, List.map_append, List.append_assoc]
  · exact fun event he => (List.mem_append.1 he).elim (hlow event) (hlow' event)
  · rw [hothers, hevents, List.append_assoc]

theorem note (w : db.Widens db') {event : Event} (hlow : event.level ≠ .info) :
    db.Widens (Journal.note event db') :=
  w.trans ⟨rfl, rfl, ⟨[], by simp [Journal.note]⟩, [event], by simpa using hlow, rfl⟩

theorem length_le (w : db.Widens db') : db.incarnations.length ≤ db'.incarnations.length := by
  obtain ⟨names, hnames⟩ := w.incarnations
  rw [hnames, List.length_append]
  exact Nat.le_add_right _ _

theorem get? (w : db.Widens db') (name : String) : db'.get? name = db.get? name :=
  get?_of_registry w.registry name

/-- What stands for a collection still does so when there are more incarnations. -/
theorem standsFor_left (w : db'.Widens db'') (hs : db.StandsFor name h db') :
    db.StandsFor name h db'' :=
  hs.imp_right fun ⟨hnone, hle, hlt⟩ => ⟨hnone, hle, Nat.lt_of_lt_of_le hlt w.length_le⟩

theorem standsFor_right (w : db.Widens db') (hs : db'.StandsFor name h db'') :
    db.StandsFor name h db'' := by
  rw [StandsFor, w.get?] at hs
  exact hs.imp_right fun ⟨hnone, hle, hlt⟩ => ⟨hnone, Nat.le_trans w.length_le hle, hlt⟩

end Widens

/-! ## What operations on names come to -/

section

variable {db : Database} {name : String} {h : Handle}

theorem create_on_invalid (hv : validName name = false) (db : Database) :
    (Action.ofStep fun db : Database => db.create name).on db =
      (.error (.invalidName name), db) := by
  simp [Action.on_ofStep, create, hv]

theorem create_on_registered (hv : validName name = true) (hget : db.get? name = some h) :
    (Action.ofStep fun db : Database => db.create name).on db =
      (.error (.collectionExists name), db) := by
  simp [Action.on_ofStep, create, hv, hget]

theorem create_on_free (hv : validName name = true) (hget : db.get? name = none) :
    (Action.ofStep fun db : Database => db.create name).on db =
      (.ok ⟨db.incarnations.length⟩,
        (db.register name).2.note (.collectionCreated db.name name)) := by
  simp [Action.on_ofStep, create, hv, hget, register, detach]

end

theorem resolver_on_registered {name : String} (hv : validName name = true) {db : Database}
    {h : Handle} (hget : db.get? name = some h) (create : Bool) :
    (resolver name create).on db = (.ok (target name h), db) := by
  have hstep : (Action.ofStep fun db : Database => db.resolve name create).on db = (.ok h, db) := by
    simp [Action.on_ofStep, resolve, hv, hget]
  exact Action.on_bind_ok hstep

/-- A name that is not registered is, where this is asked for. -/
theorem resolver_on_free {name : String} (hv : validName name = true) {db : Database}
    (hget : db.get? name = none) :
    (resolver name true).on db =
      (.ok (target name ⟨db.incarnations.length⟩), (db.register name).2) := by
  have hstep : (Action.ofStep fun db : Database => db.resolve name true).on db =
      (.ok ⟨db.incarnations.length⟩, (db.register name).2) := by
    simp [Action.on_ofStep, resolve, hv, hget, register, detach]
  exact Action.on_bind_ok hstep

/-- A valid name that is looked for, without being created, is found. -/
theorem resolver_on {name : String} (hv : validName name = true) (db : Database) :
    ∃ h db', (resolver name false).on db = (.ok (target name h), db') ∧ db.Widens db' ∧
      db.StandsFor name h db' := by
  cases hget : db.get? name with
  | some h => exact ⟨h, db, resolver_on_registered hv hget false, .refl db, .inl hget⟩
  | none =>
    have hstep : (Action.ofStep fun db : Database => db.resolve name false).on db =
        (.ok ⟨db.incarnations.length⟩,
          ((db.note (.absentResolved db.name name)).detach name).2) := by
      simp [Action.on_ofStep, resolve, hv, hget, detach, note, Journal.note]
    refine ⟨_, _, Action.on_bind_ok hstep, ?_,
      .inr ⟨hget, Nat.le_refl _, by simp [detach, note, Journal.note]⟩⟩
    exact ⟨rfl, rfl, ⟨[name], rfl⟩, [.absentResolved db.name name], by simp [Event.level], rfl⟩

theorem resolver_on_invalid {name : String} (hv : validName name = false) (create : Bool)
    (db : Database) : (resolver name create).on db = (.error (.invalidName name), db) :=
  Action.on_bind_error (by simp [Action.on_ofStep, resolve, hv])

end Database

/-! ## Lookups -/

namespace Lookup

open Join

variable {σ α β : Type}

theorem reading_ok (a : α) : reading (.ok a) = (pure a : Action σ α) := rfl

theorem reading_bind (result : Except SpecificationFault α)
    (next : α → Except SpecificationFault β) :
    (reading (result >>= next) : Action σ β) = reading result >>= fun a => reading (next a) := by
  cases result <;> rfl

/-- The lookup of a plan in a target. -/
def ofPlan (p : Plan) (target : Target σ) : Lookup σ :=
  ⟨p.source, p.localField, p.foreignField, p.resultField, target⟩

/-- What is noted of the lookup of a plan. -/
def planBuilt (p : Plan) : Event :=
  .lookupBuilt p.source p.localField p.foreignField p.resultField

/-- What becomes of a plan once its source has been resolved. -/
def ofPlanOn [Journal σ] (target : Target σ) (s : σ) :
    Except SpecificationFault Plan → Except Failure (Lookup σ) × σ
  | .error fault => (.error (.specification fault), s)
  | .ok p => (.ok (ofPlan p target), Journal.note (planBuilt p) s)

section

variable [Journal σ] {resolver : Resolver σ} {configuration : Document} {s t : σ}

theorem build_on_faulty {fault : SpecificationFault}
    (h : Options.text configuration stageName "from" = .error fault) (s : σ) :
    (build resolver configuration).on s = (.error (.specification fault), s) := by
  rw [build, h]
  rfl

theorem build_on_unresolved {source : String} {e : Failure}
    (h : Options.text configuration stageName "from" = .ok source)
    (hres : (resolver source false).on s = (.error e, t)) :
    (build resolver configuration).on s = (.error e, t) := by
  rw [build, h, reading_ok, pure_bind]
  exact Action.on_bind_error hres

theorem build_on_resolved {source : String} {target : Target σ}
    (h : Options.text configuration stageName "from" = .ok source)
    (hres : (resolver source false).on s = (.ok target, t)) :
    (build resolver configuration).on s =
      ofPlanOn target t (Plan.complete configuration source) := by
  rw [build, h, reading_ok, pure_bind, Action.on_bind_ok hres]
  have hcomplete : ((reading (Plan.complete configuration source) : Action σ Plan) >>= fun p => do
      modify (Journal.note (planBuilt p))
      return ofPlan p target).on t = ofPlanOn target t (Plan.complete configuration source) := by
    cases Plan.complete configuration source <;> rfl
  rw [← hcomplete, Plan.complete]
  simp only [reading_bind, bind_assoc]
  rfl

end

/-- **What building a lookup does on a database.** It succeeds where the configuration can be read,
with the lookup that is written there, in what stands for the collection of its source. -/
theorem build_on (configuration : Document) (db : Database) :
    ∃ h db', (build Database.resolver configuration).on db =
        ((Plan.read configuration).map fun p => (p.join h).lookup, db') ∧ db.Widens db' ∧
      ∀ p, Plan.read configuration = .ok p → db.StandsFor p.source h db' := by
  cases htext : Options.text configuration stageName "from" with
  | error fault =>
    rw [build_on_faulty htext, Plan.read_of_error htext]
    exact ⟨⟨0⟩, db, rfl, .refl db, nofun⟩
  | ok source =>
    rw [Plan.read_of_ok htext, Plan.checkName]
    by_cases hv : Database.validName source = true
    · -- Whatever fails from here on, the source has been looked for.
      obtain ⟨h, db₁, hres, hw, hs⟩ := Database.resolver_on hv db
      rw [build_on_resolved htext hres, if_pos hv]
      cases hcomplete : Plan.complete configuration source with
      | error fault => exact ⟨h, db₁, rfl, hw, nofun⟩
      | ok p =>
        obtain rfl := Plan.source_of_complete hcomplete
        refine ⟨h, _, rfl, hw.note (by simp [planBuilt, Event.level]), ?_⟩
        rintro _ hp
        cases hp
        exact hs
    · rw [build_on_unresolved htext
        (Database.resolver_on_invalid (by simpa using hv) false db), if_neg hv]
      exact ⟨⟨0⟩, db, rfl, .refl db, nofun⟩

end Lookup

/-! ## Pipelines -/

namespace Pipeline

open Join

/-- Lookups that a database has made of plans: each is in what stands for the collection of its
source. -/
def Made (db : Database) (plans : List Plan) (joins : List Join) (db' : Database) : Prop :=
  List.Forall₂ (fun p j => ∃ h, j = p.join h ∧ db.StandsFor p.source h db') plans joins

/-- A specification that is refused before any name is looked for. -/
theorem buildStage_on_refused {spec : Document} {db : Database} {e : Failure}
    (hstage : (buildStage Database.resolver spec).on db = (.error e, db))
    (hspec : Plan.ofSpecification spec = .error e) :
    ∃ h db', (buildStage Database.resolver spec).on db =
        ((Plan.ofSpecification spec).map fun p => (p.join h).lookup.stage, db') ∧ db.Widens db' ∧
      ∀ p, Plan.ofSpecification spec = .ok p → db.StandsFor p.source h db' := by
  refine ⟨⟨0⟩, db, ?_, .refl db, ?_⟩
  · rw [hstage, hspec]
    rfl
  · intro p hp
    rw [hspec] at hp
    cases hp

theorem buildStage_on (spec : Document) (db : Database) :
    ∃ h db', (buildStage Database.resolver spec).on db =
        ((Plan.ofSpecification spec).map fun p => (p.join h).lookup.stage, db') ∧ db.Widens db' ∧
      ∀ p, Plan.ofSpecification spec = .ok p → db.StandsFor p.source h db' := by
  rcases spec with _ | ⟨⟨name, body⟩, _ | ⟨field, rest⟩⟩
  · exact buildStage_on_refused rfl rfl
  · by_cases hname : name = Lookup.stageName
    · subst hname
      cases body with
      | document configuration =>
        rw [buildStage, Plan.ofSpecification, if_pos rfl, if_pos rfl]
        obtain ⟨h, db', hbuild, hw, hs⟩ := Lookup.build_on configuration db
        refine ⟨h, db', ?_, hw, hs⟩
        cases hread : Plan.read configuration with
        | error e =>
          rw [hread] at hbuild
          exact Action.on_bind_error hbuild
        | ok p =>
          rw [hread] at hbuild
          exact Action.on_bind_ok hbuild
      | _ => exact buildStage_on_refused rfl rfl
    · have hstage : (buildStage Database.resolver [(name, body)]).on db =
          (.error (.specification (.unknownStage name)), db) := by
        rw [buildStage.eq_def]
        simp only [if_neg hname]
        rfl
      have hspec : Plan.ofSpecification [(name, body)] =
          .error (.specification (.unknownStage name)) := by
        rw [Plan.ofSpecification.eq_def]
        simp only [if_neg hname]
      exact buildStage_on_refused hstage hspec
  · exact buildStage_on_refused rfl rfl

/-- What building stages one after the other does on a database: the first specification that cannot
be read is the failure. -/
theorem buildStages_on (specs : List Document) (db : Database) :
    ∃ joins db', (buildStages Database.resolver specs).on db =
        ((specs.mapM Plan.ofSpecification).map fun _ => Join.stages joins, db') ∧ db.Widens db' ∧
      ∀ plans, specs.mapM Plan.ofSpecification = .ok plans → Made db plans joins db' := by
  induction specs generalizing db with
  | nil => exact ⟨[], db, rfl, .refl db, fun plans hp => by cases hp; exact .nil⟩
  | cons spec rest ih =>
    obtain ⟨h, db₁, hstage, hw, hs⟩ := buildStage_on spec db
    rw [buildStages, List.mapM_cons]
    cases hspec : Plan.ofSpecification spec with
    | error e =>
      rw [hspec] at hstage
      exact ⟨[], db₁, Action.on_bind_error hstage, hw, nofun⟩
    | ok p =>
      obtain ⟨joins, db₂, hstages, hw', hmade⟩ := ih db₁
      rw [hspec] at hstage
      rw [Action.on_bind_ok hstage]
      cases hrest : rest.mapM Plan.ofSpecification with
      | error e =>
        rw [hrest] at hstages
        exact ⟨[], db₂, Action.on_bind_error hstages, hw.trans hw', nofun⟩
      | ok plans =>
        rw [hrest] at hstages
        refine ⟨p.join h :: joins, db₂, Action.on_bind_ok hstages, hw.trans hw', ?_⟩
        rintro _ hplans
        cases hplans
        refine .cons ⟨h, rfl, hw'.standsFor_left (hs p hspec)⟩ ?_
        exact (hmade plans hrest).imp fun _ _ ⟨k, hj, hk⟩ => ⟨k, hj, hw.standsFor_right hk⟩

/-- **What building a pipeline does on a database.** It succeeds where the specifications can be
read, one after the other, with the lookups that are written there. -/
theorem build_on (specs : List Document) (db : Database) :
    ∃ joins db', (build Database.resolver specs).on db =
        ((specs.mapM Plan.ofSpecification).map fun _ => ⟨Join.stages joins⟩, db') ∧ db.Widens db' ∧
      ∀ plans, specs.mapM Plan.ofSpecification = .ok plans → Made db plans joins db' := by
  obtain ⟨joins, db₁, hstages, hw, hmade⟩ := buildStages_on specs db
  cases hread : specs.mapM Plan.ofSpecification with
  | error e =>
    rw [hread] at hstages
    exact ⟨joins, db₁, Action.on_bind_error hstages, hw, nofun⟩
  | ok plans =>
    rw [hread] at hstages
    refine ⟨joins, _, Action.on_bind_ok hstages, hw.note (by simp [Event.level]), ?_⟩
    rintro _ hplans
    exact (hmade _ (hread.trans hplans)).imp fun _ _ ⟨k, hj, hk⟩ => ⟨k, hj, hk⟩

end Pipeline

end DocStore
