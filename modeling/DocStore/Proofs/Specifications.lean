import DocStore.Proofs.Registry
import DocStore.Proofs.Requests

/-!
# Specifications one after the other

A pipeline is built of its specifications in order, up to the first that is refused. What each comes
to is told by what building its lookup alone comes to, on the state that the pipeline is built on;
this asks of the resolver that its answers do not depend on what has been asked before.

* `Action.SettlesLike` says that an action has corresponding results on all states of a kind, and
  keeps the kind; `Action.SettlesLike.mapM` is about actions one after the other.
* `Lookup.ofSpecification` is the lookup that a specification writes, and `Pipeline.Malformed` says
  which specifications write none. `Pipeline.build_on_ok` and `Pipeline.build_on_error` tell of
  pipelines by their lookups.
* `Resolver.Steady` is what is asked of the resolver. A resolver that answers by the name alone is
  steady (`Resolver.steady_of_name`), and so is a database (`Database.resolver_steady`).
* `Pipeline.Alone` is what building a pipeline comes to, `Pipeline.build_alone` proves it from
  steadiness, and `Pipeline.build_stops` is the main statement.
-/

namespace DocStore

variable {σ α β γ δ : Type}

/-! ## Actions with corresponding results -/

/-- Two results are one failure, or related. -/
inductive Corresponds (r : α → β → Prop) : Except Failure α → Except Failure β → Prop
  | ok {a : α} {b : β} : r a b → Corresponds r (.ok a) (.ok b)
  | error (e : Failure) : Corresponds r (.error e) (.error e)

/-- On every state of a kind an action has a result that corresponds to a given one, and it leaves a
state of the kind. -/
def Action.SettlesLike (among : σ → Prop) (r : α → β → Prop) (result : Except Failure α)
    (action : Action σ β) : Prop :=
  ∀ s, among s → Corresponds r result (action.on s).1 ∧ among (action.on s).2

theorem forall₂_comp {r : α → β → Prop} {q : β → γ → Prop} {as : List α} {bs : List β} {cs : List γ}
    (h : List.Forall₂ r as bs) (h' : List.Forall₂ q bs cs) :
    List.Forall₂ (fun a c => ∃ b, r a b ∧ q b c) as cs := by
  induction h generalizing cs with
  | nil =>
    cases h'
    exact .nil
  | cons hr _ ih =>
    cases h' with
    | cons hq h' => exact .cons ⟨_, hr, hq⟩ (ih h')

namespace Action

variable {among : σ → Prop} {r : α → β → Prop} {q : γ → δ → Prop}

theorem SettlesLike.bind {result : Except Failure α} {action : Action σ β}
    {f : α → Except Failure γ} {next : β → Action σ δ} (h : SettlesLike among r result action)
    (hn : ∀ a b, r a b → SettlesLike among q (f a) (next b)) :
    SettlesLike among q (result >>= f) (action >>= next) := by
  intro s hs
  obtain ⟨hresult, hkept⟩ := h s hs
  rcases hrun : action.on s with ⟨given, t⟩
  rw [hrun] at hresult hkept
  cases hresult with
  | error e =>
    rw [on_bind_error hrun]
    exact ⟨.error e, hkept⟩
  | ok hr =>
    rw [on_bind_ok hrun]
    exact hn _ _ hr t hkept

theorem SettlesLike.pure {a : α} {b : β} (h : r a b) :
    SettlesLike among r (.ok a) (Pure.pure b : Action σ β) := fun _ hs => ⟨.ok h, hs⟩

/-- Actions one after the other correspond to results one after the other. -/
theorem SettlesLike.mapM {read : γ → Except Failure α} {act : γ → Action σ β}
    (h : ∀ c, SettlesLike among r (read c) (act c)) (cs : List γ) :
    SettlesLike among (List.Forall₂ r) (cs.mapM read) (cs.mapM act) := by
  induction cs with
  | nil => exact .pure .nil
  | cons c rest ih =>
    rw [List.mapM_cons, List.mapM_cons]
    apply (h c).bind
    intro a b hr
    apply ih.bind
    intro as bs hrs
    exact .pure (.cons hr hrs)

/-- The first action that fails ends the work. -/
theorem mapM_on_error {act : γ → Action σ β} {before : List γ} {c : γ} {after : List γ} {s t u : σ}
    {bs : List β} {e : Failure} (hbefore : (before.mapM act).on s = (.ok bs, t))
    (hc : (act c).on t = (.error e, u)) :
    ((before ++ c :: after).mapM act).on s = (.error e, u) := by
  rw [List.mapM_append, on_bind_ok hbefore, List.mapM_cons, bind_assoc]
  exact on_bind_error hc

end Action

/-! ## The configurations of specifications -/

namespace Pipeline

/-- The configuration that a specification holds for a lookup. -/
def configuration : Document → Except SpecificationFault Document
  | [(name, body)] =>
    if name = Lookup.stageName then
      match body with
      | .document fields => .ok fields
      | _ => .error (.bodyNotDocument name body.typeName)
    else .error (.unknownStage name)
  | _ => .error .fieldCount

/-- What can be wrong with a specification so that it holds none. -/
inductive Malformed : Document → SpecificationFault → Prop
  | noField : Malformed [] .fieldCount
  | moreFields {field other : String × Value} {rest : Document} :
    Malformed (field :: other :: rest) .fieldCount
  | unknownStage {name : String} {body : Value} : name ≠ "$lookup" →
    Malformed [(name, body)] (.unknownStage name)
  | bodyNotDocument {body : Value} : (∀ fields, body ≠ .document fields) →
    Malformed [("$lookup", body)] (.bodyNotDocument "$lookup" body.typeName)

/-- The field of a specification that is to name a stage; empty where there is not just one. -/
def stageKey : Document → String
  | [(name, _)] => name
  | _ => ""

theorem Malformed.kind_key {spec : Document} {fault : SpecificationFault}
    (h : Malformed spec fault) : fault.kind = .invalidStage ∧ fault.key = stageKey spec := by
  cases h <;> exact ⟨rfl, rfl⟩

/-- A specification holds a configuration, or something is wrong with it. -/
theorem document_or_malformed (spec : Document) :
    (∃ fields, spec = [(Lookup.stageName, .document fields)]) ∨ ∃ fault, Malformed spec fault := by
  rcases spec with _ | ⟨⟨name, body⟩, _ | ⟨other, rest⟩⟩
  · exact .inr ⟨_, .noField⟩
  · by_cases hname : name = Lookup.stageName
    · subst hname
      by_cases hbody : ∃ fields, body = .document fields
      · obtain ⟨fields, rfl⟩ := hbody
        exact .inl ⟨fields, rfl⟩
      · rw [not_exists] at hbody
        exact .inr ⟨_, .bodyNotDocument hbody⟩
    · exact .inr ⟨_, .unknownStage hname⟩
  · exact .inr ⟨_, .moreFields⟩

theorem configuration_of_malformed {spec : Document} {fault : SpecificationFault}
    (h : Malformed spec fault) : configuration spec = .error fault := by
  cases h with
  | noField | moreFields => rfl
  | unknownStage hname =>
    unfold configuration
    exact if_neg hname
  | @bodyNotDocument body hbody =>
    cases body with
    | document fields => exact absurd rfl (hbody fields)
    | _ => rfl

end Pipeline

/-! ## The lookups of specifications -/

section

variable [Journal σ]

/-- The lookup that a specification writes. -/
def Lookup.ofSpecification (resolver : Resolver σ) (spec : Document) : Action σ (Lookup σ) := do
  build resolver (← reading (Pipeline.configuration spec))

namespace Pipeline

theorem buildStage_eq (resolver : Resolver σ) (spec : Document) :
    buildStage resolver spec = Lookup.stage <$> Lookup.ofSpecification resolver spec := by
  unfold buildStage Lookup.ofSpecification configuration
  rcases spec with _ | ⟨⟨name, body⟩, _ | ⟨other, rest⟩⟩
  · rfl
  · by_cases hname : name = Lookup.stageName
    · simp only [if_pos hname]
      cases body <;> rfl
    · simp only [if_neg hname]
      rfl
  · rfl

theorem buildStages_eq (resolver : Resolver σ) (specs : List Document) :
    buildStages resolver specs =
      List.map Lookup.stage <$> specs.mapM (Lookup.ofSpecification resolver) := by
  induction specs with
  | nil => rfl
  | cons spec rest ih =>
    rw [buildStages, List.mapM_cons, buildStage_eq, ih]
    simp only [map_bind, map_pure, bind_map_left, List.map_cons]

variable {resolver : Resolver σ} {specs : List Document} {s t : σ}

theorem build_on_ok {lookups : List (Lookup σ)}
    (h : (specs.mapM (Lookup.ofSpecification resolver)).on s = (.ok lookups, t)) :
    (build resolver specs).on s = (.ok ⟨lookups.map Lookup.stage⟩,
      Journal.note (.pipelineBuilt (names ⟨lookups.map Lookup.stage⟩)) t) := by
  rw [build, buildStages_eq, Action.on_bind_ok (Action.on_map _ h)]
  rfl

theorem build_on_error {e : Failure}
    (h : (specs.mapM (Lookup.ofSpecification resolver)).on s = (.error e, t)) :
    (build resolver specs).on s = (.error e, t) := by
  rw [build, buildStages_eq]
  exact Action.on_bind_error (Action.on_map _ h)

/-! ### The calls that are made for them -/

theorem names_called (lookups : List (Lookup σ)) :
    names ⟨(lookups.map Lookup.called).map Lookup.stage⟩ = names ⟨lookups.map Lookup.stage⟩ := by
  simp [names, Lookup.stage, Function.comp_def]

/-- The calls that are made for a specification: those for its configuration. -/
def callsOf (spec : Document) : List Call :=
  match configuration spec with
  | .ok fields => Lookup.calls fields
  | .error _ => []

theorem create_of_mem_callsOf {spec : Document} {call : Call} (h : call ∈ callsOf spec) :
    call.create = false := by
  unfold callsOf at h
  split at h
  · exact (Lookup.mem_calls_iff.1 h).2
  · cases h

theorem ofSpecification_recorded (resolver : Resolver σ) (spec : Document) (s : σ) :
    (Lookup.ofSpecification resolver spec).Records Lookup.called
      (Lookup.ofSpecification resolver.recorded spec) s (callsOf spec) := by
  unfold Lookup.ofSpecification callsOf
  cases configuration spec with
  | error fault =>
    intro before
    rw [List.append_nil]
    rfl
  | ok fields => exact Lookup.build_recorded resolver fields s

/-! ### What each comes to by itself -/

/-- On a state a specification makes a lookup. -/
inductive Makes (resolver : Resolver σ) (s : σ) : Document → Lookup σ → Prop
  | document {fields : Document} {l : Lookup σ} :
    ((Lookup.build resolver fields).on s).1 = .ok l →
    Makes resolver s [("$lookup", .document fields)] l

/-- On a state a specification is refused: it holds no configuration of a lookup, or the lookup is
refused. -/
inductive Refuses (resolver : Resolver σ) (s : σ) : Document → Failure → Prop
  | malformed {spec : Document} {fault : SpecificationFault} : Malformed spec fault →
    Refuses resolver s spec (.specification fault)
  | document {fields : Document} {e : Failure} :
    ((Lookup.build resolver fields).on s).1 = .error e →
    Refuses resolver s [("$lookup", .document fields)] e

theorem ofSpecification_malformed {spec : Document} {fault : SpecificationFault}
    (h : Malformed spec fault) (s : σ) :
    (Lookup.ofSpecification resolver spec).on s = (.error (.specification fault), s) := by
  rw [Lookup.ofSpecification, configuration_of_malformed h]
  rfl

theorem ofSpecification_eq_ok_iff {spec : Document} {l : Lookup σ} :
    ((Lookup.ofSpecification resolver spec).on s).1 = .ok l ↔ Makes resolver s spec l := by
  constructor
  · intro h
    obtain ⟨fields, rfl⟩ | ⟨fault, hspec⟩ := document_or_malformed spec
    · exact .document h
    · rw [ofSpecification_malformed hspec] at h
      cases h
  · rintro ⟨h⟩
    exact h

theorem ofSpecification_eq_error_iff {spec : Document} {e : Failure} :
    ((Lookup.ofSpecification resolver spec).on s).1 = .error e ↔ Refuses resolver s spec e := by
  constructor
  · intro h
    obtain ⟨fields, rfl⟩ | ⟨fault, hspec⟩ := document_or_malformed spec
    · exact .document h
    · rw [ofSpecification_malformed hspec] at h
      cases h
      exact .malformed hspec
  · rintro (hspec | h)
    · rw [ofSpecification_malformed hspec]
    · exact h

end Pipeline

/-! ## Resolvers that answer alike -/

/-- Lookups of one plan in related targets. -/
inductive Lookup.Like (r : String → Target σ → Target σ → Prop) : Lookup σ → Lookup σ → Prop
  | plan (p : Join.Plan) {a b : Target σ} : r p.source a b → Like r (ofPlan p a) (ofPlan p b)

/-- On all states of a kind a resolver answers as it does on one of them, with related targets, and
it keeps the kind; so do notes. -/
structure Resolver.Steady (resolver : Resolver σ) (among : σ → Prop)
    (r : String → Target σ → Target σ → Prop) (s : σ) : Prop where
  start : among s
  noted : ∀ event t, event.level ≠ .info → among t → among (Journal.note event t)
  answers : ∀ name,
    Action.SettlesLike among (r name) ((resolver name false).on s).1 (resolver name false)

namespace Resolver.Steady

variable {resolver : Resolver σ} {among : σ → Prop} {r : String → Target σ → Target σ → Prop}
  {s : σ}

theorem build (h : resolver.Steady among r s) (configuration : Document) :
    Action.SettlesLike among (Lookup.Like r) ((Lookup.build resolver configuration).on s).1
      (Lookup.build resolver configuration) := by
  intro t ht
  cases htext : Options.text configuration Lookup.stageName "from" with
  | error fault =>
    rw [Lookup.build_on_faulty htext, Lookup.build_on_faulty htext]
    exact ⟨.error _, ht⟩
  | ok source =>
    obtain ⟨hresult, hkept⟩ := h.answers source t ht
    rcases hs : (resolver source false).on s with ⟨a, s'⟩
    rcases hu : (resolver source false).on t with ⟨b, u⟩
    rw [hs, hu] at hresult
    rw [hu] at hkept
    cases hresult with
    | error e =>
      rw [Lookup.build_on_unresolved htext hs, Lookup.build_on_unresolved htext hu]
      exact ⟨.error e, hkept⟩
    | ok hr =>
      rw [Lookup.build_on_resolved htext hs, Lookup.build_on_resolved htext hu]
      cases hcomplete : Join.Plan.complete configuration source with
      | error fault => exact ⟨.error _, hkept⟩
      | ok p =>
        rw [← Join.Plan.source_of_complete hcomplete] at hr
        exact ⟨.ok (.plan p hr), h.noted _ _ (by simp [Lookup.planBuilt, Event.level]) hkept⟩

theorem ofSpecification (h : resolver.Steady among r s) (spec : Document) :
    Action.SettlesLike among (Lookup.Like r) ((Lookup.ofSpecification resolver spec).on s).1
      (Lookup.ofSpecification resolver spec) := by
  unfold Lookup.ofSpecification
  cases Pipeline.configuration spec with
  | error fault =>
    intro t ht
    exact ⟨.error _, ht⟩
  | ok fields => exact h.build fields

end Resolver.Steady

/-! ## Pipelines -/

namespace Pipeline

/-- What building a pipeline comes to on a state, told by what its specifications come to there by
themselves. -/
structure Alone (resolver : Resolver σ) (like : Lookup σ → Lookup σ → Prop) (specs : List Document)
    (s : σ) : Prop where
  /-- It succeeds where every specification makes a lookup. -/
  succeeds : (∃ p, ((build resolver specs).on s).1 = .ok p) ↔
    ∀ spec ∈ specs, ∃ l, Makes resolver s spec l
  /-- There is one stage for each specification, in order: a lookup like the one that it makes. -/
  stages : ∀ p, ((build resolver specs).on s).1 = .ok p → List.Forall₂
    (fun spec stage => ∃ l l', Makes resolver s spec l ∧ like l l' ∧ stage = l'.stage)
    specs p.stages
  /-- It fails with what the first specification is refused for that makes none. -/
  fails : ∀ e, ((build resolver specs).on s).1 = .error e ↔ ∃ before spec after,
    specs = before ++ spec :: after ∧ (∀ b ∈ before, ∃ l, Makes resolver s b l) ∧
      Refuses resolver s spec e
  /-- What is asked of the resolver is asked for specifications that are looked at: all of them, or
  those up to the first that is refused. -/
  asked : ∃ looked later, specs = looked ++ later ∧
    ((build resolver.recorded specs).on ⟨s, []⟩).2 =
      ⟨((build resolver specs).on s).2, looked.flatMap callsOf⟩ ∧
    ((later = [] ∧ ∀ spec ∈ looked, ∃ l, Makes resolver s spec l) ∨
      ∃ before spec e, looked = before ++ [spec] ∧ (∀ b ∈ before, ∃ l, Makes resolver s b l) ∧
        Refuses resolver s spec e)
  /-- Nothing is asked to be created. -/
  creates : ∀ call ∈ ((build resolver.recorded specs).on ⟨s, []⟩).2.calls, call.create = false

variable {resolver : Resolver σ} {among : σ → Prop} {r : String → Target σ → Target σ → Prop}
  {s : σ} {specs : List Document}

theorem Alone.imp {like like' : Lookup σ → Lookup σ → Prop} (h : Alone resolver like specs s)
    (himp : ∀ l l', like l l' → like' l l') : Alone resolver like' specs s where
  succeeds := h.succeeds
  stages p hp := (h.stages p hp).imp fun _ _ ⟨l, l', hmakes, hlike, hstage⟩ =>
    ⟨l, l', hmakes, himp l l' hlike, hstage⟩
  fails := h.fails
  asked := h.asked
  creates := h.creates

/-- Specifications that all make a lookup. -/
theorem mapM_on_ok (h : resolver.Steady among r s)
    (hmake : ∀ spec ∈ specs, ∃ l, Makes resolver s spec l) :
    ∃ lookups t, (specs.mapM (Lookup.ofSpecification resolver)).on s = (.ok lookups, t) ∧ among t ∧
      List.Forall₂ (fun spec l' => ∃ l, Makes resolver s spec l ∧ Lookup.Like r l l')
        specs lookups := by
  obtain ⟨hresult, hkept⟩ := Action.SettlesLike.mapM h.ofSpecification specs s h.start
  simp only [← ofSpecification_eq_ok_iff] at hmake ⊢
  obtain ⟨made, hmade⟩ := Filter.exists_mapM_eq_ok_iff.2 hmake
  rcases hrun : (specs.mapM (Lookup.ofSpecification resolver)).on s with ⟨result, t⟩
  rw [hmade, hrun] at hresult
  rw [hrun] at hkept
  cases hresult with
  | ok hlike => exact ⟨_, t, rfl, hkept, forall₂_comp (Filter.mapM_eq_ok_iff.1 hmade) hlike⟩

/-- Specifications of which one is refused, all before it making a lookup. -/
theorem mapM_on_error (h : resolver.Steady among r s) {before : List Document} {spec : Document}
    {e : Failure} (hbefore : ∀ b ∈ before, ∃ l, Makes resolver s b l)
    (hspec : Refuses resolver s spec e) (after : List Document) :
    ∃ t, ((before ++ spec :: after).mapM (Lookup.ofSpecification resolver)).on s = (.error e, t) ∧
      ((before ++ spec :: after).mapM (Lookup.ofSpecification resolver.recorded)).on ⟨s, []⟩ =
        (.error e, ⟨t, (before ++ [spec]).flatMap callsOf⟩) := by
  obtain ⟨lookups, t, hrun, hkept, -⟩ := mapM_on_ok h hbefore
  -- What was built before keeps the kind of the state, so that it is refused as on the first state.
  obtain ⟨hresult, -⟩ := h.ofSpecification spec t hkept
  rw [ofSpecification_eq_error_iff.2 hspec] at hresult
  rcases hstep : (Lookup.ofSpecification resolver spec).on t with ⟨result, u⟩
  rw [hstep] at hresult
  cases hresult
  refine ⟨u, Action.mapM_on_error hrun hstep, ?_⟩
  have hrecorded := Action.Records.mapM_on_ok (ofSpecification_recorded resolver) hrun []
  rw [List.nil_append] at hrecorded
  rw [Action.mapM_on_error hrecorded ((ofSpecification_recorded resolver spec t).on hstep _),
    List.flatMap_append, List.flatMap_singleton]

/-- All specifications make a lookup, or there is a first that is refused. -/
theorem makes_or_refuses (resolver : Resolver σ) (specs : List Document) (s : σ) :
    (∀ spec ∈ specs, ∃ l, Makes resolver s spec l) ∨
      ∃ e before spec after, specs = before ++ spec :: after ∧
        (∀ b ∈ before, ∃ l, Makes resolver s b l) ∧ Refuses resolver s spec e := by
  simp only [← ofSpecification_eq_ok_iff, ← ofSpecification_eq_error_iff]
  rw [← Filter.exists_mapM_eq_ok_iff]
  cases hread : specs.mapM fun spec => ((Lookup.ofSpecification resolver spec).on s).1 with
  | ok made => exact .inl ⟨made, rfl⟩
  | error e => exact .inr ⟨e, Filter.mapM_eq_error_iff.1 hread⟩

theorem Makes.not_refuses {spec : Document} {l : Lookup σ} {e : Failure}
    (h : Makes resolver s spec l) : ¬ Refuses resolver s spec e := by
  intro hrefuses
  cases (ofSpecification_eq_ok_iff.2 h).symm.trans (ofSpecification_eq_error_iff.2 hrefuses)

theorem create_of_mem_flatMap {call : Call} (h : call ∈ specs.flatMap callsOf) :
    call.create = false := by
  obtain ⟨spec, -, hcall⟩ := List.mem_flatMap.1 h
  exact create_of_mem_callsOf hcall

theorem alone_of_makes (h : resolver.Steady among r s)
    (hmake : ∀ spec ∈ specs, ∃ l, Makes resolver s spec l) :
    Alone resolver (Lookup.Like r) specs s := by
  obtain ⟨lookups, t, hrun, -, hlike⟩ := mapM_on_ok h hmake
  have hbuilt := build_on_ok hrun
  have hrecorded :=
    build_on_ok (Action.Records.mapM_on_ok (ofSpecification_recorded resolver) hrun [])
  constructor
  case succeeds =>
    rw [hbuilt]
    exact iff_of_true ⟨_, rfl⟩ hmake
  case stages =>
    intro p hp
    rw [hbuilt] at hp
    cases hp
    refine List.forall₂_map_right_iff.2 (hlike.imp ?_)
    rintro spec l' ⟨l, hl, hll'⟩
    exact ⟨l, l', hl, hll', rfl⟩
  case fails =>
    intro e
    rw [hbuilt]
    refine iff_of_false nofun ?_
    rintro ⟨before, spec, after, rfl, -, hspec⟩
    obtain ⟨l, hl⟩ := hmake spec (List.mem_append_right _ List.mem_cons_self)
    exact hl.not_refuses hspec
  case asked =>
    refine ⟨specs, [], (List.append_nil specs).symm, ?_, .inl ⟨rfl, hmake⟩⟩
    rw [hrecorded, hbuilt, names_called]
    rfl
  case creates =>
    rw [hrecorded]
    intro call hcall
    exact create_of_mem_flatMap hcall

theorem alone_of_refuses (h : resolver.Steady among r s) {before : List Document}
    {spec : Document} {after : List Document} {e : Failure}
    (hbefore : ∀ b ∈ before, ∃ l, Makes resolver s b l) (hspec : Refuses resolver s spec e) :
    Alone resolver (Lookup.Like r) (before ++ spec :: after) s := by
  obtain ⟨t, hrun, hrun'⟩ := mapM_on_error h hbefore hspec after
  have hbuilt := build_on_error hrun
  have hrecorded := build_on_error hrun'
  constructor
  case succeeds =>
    rw [hbuilt]
    refine iff_of_false nofun fun hmake => ?_
    obtain ⟨l, hl⟩ := hmake spec (List.mem_append_right _ List.mem_cons_self)
    exact hl.not_refuses hspec
  case stages =>
    intro p hp
    rw [hbuilt] at hp
    cases hp
  case fails =>
    intro e'
    rw [hbuilt]
    constructor
    · intro he
      cases he
      exact ⟨before, spec, after, rfl, hbefore, hspec⟩
    · rintro ⟨before', spec', after', heq, hbefore', hspec'⟩
      obtain ⟨t', hother, -⟩ := mapM_on_error h hbefore' hspec' after'
      rw [← heq, hrun] at hother
      cases hother
      rfl
  case asked =>
    refine ⟨before ++ [spec], after, by simp, ?_, .inr ⟨before, spec, e, rfl, hbefore, hspec⟩⟩
    rw [hrecorded, hbuilt]
  case creates =>
    rw [hrecorded]
    intro call hcall
    exact create_of_mem_flatMap hcall

/-- What building a pipeline comes to with a resolver that answers alike. -/
theorem build_alone (h : resolver.Steady among r s) (specs : List Document) :
    Alone resolver (Lookup.Like r) specs s := by
  obtain hmake | ⟨e, before, spec, after, rfl, hbefore, hspec⟩ :=
    makes_or_refuses resolver specs s
  · exact alone_of_makes h hmake
  · exact alone_of_refuses h hbefore hspec

end Pipeline

/-- A resolver that answers by the name alone. -/
theorem Resolver.steady_of_name {resolver : Resolver σ}
    (hname : ∀ name s t, ((resolver name false).on s).1 = ((resolver name false).on t).1) (s : σ) :
    resolver.Steady (fun _ => True) (fun _ => Eq) s where
  start := trivial
  noted _ _ _ _ := trivial
  answers name t _ := by
    refine ⟨?_, trivial⟩
    rw [hname name s t]
    cases ((resolver name false).on t).1 with
    | error e => exact .error e
    | ok target => exact .ok rfl

end

/-! ## Databases -/

namespace Database

/-- Two targets that stand for the collection of a name: its registered incarnation, or incarnations
that the database does not have yet where the name has none. -/
def Twins (db : Database) (name : String) (a b : Target Database) : Prop :=
  ∃ h h', a = target name h ∧ b = target name h' ∧
    ((db.get? name = some h ∧ h' = h) ∨
      (db.get? name = none ∧ db.incarnations.length ≤ h.index ∧
        db.incarnations.length ≤ h'.index))

theorem twins_of_standsFor {db db₁ db₂ t : Database} {name : String} {h h' : Handle}
    (hw : db.Widens t) (hs : db.StandsFor name h db₁) (hs' : t.StandsFor name h' db₂) :
    db.Twins name (target name h) (target name h') := by
  refine ⟨h, h', rfl, rfl, ?_⟩
  rw [StandsFor, hw.get?] at hs'
  obtain hget | ⟨hnone, hle, -⟩ := hs
  · obtain hget' | ⟨hnone', -⟩ := hs'
    · exact .inl ⟨hget, Option.some.inj (hget'.symm.trans hget)⟩
    · cases hget.symm.trans hnone'
  · obtain hget' | ⟨-, hle', -⟩ := hs'
    · cases hnone.symm.trans hget'
    · exact .inr ⟨hnone, hle, Nat.le_trans hw.length_le hle'⟩

/-- A database answers alike while nothing is registered, dropped or entered. -/
theorem resolver_steady (db : Database) : resolver.Steady db.Widens db.Twins db where
  start := .refl db
  noted _ _ hlow hw := hw.note hlow
  answers name t hw := by
    by_cases hv : validName name = true
    · obtain ⟨h, db₁, hres, -, hs⟩ := resolver_on hv db
      obtain ⟨h', db₂, hres', hw', hs'⟩ := resolver_on hv t
      rw [hres, hres']
      exact ⟨.ok (twins_of_standsFor hw hs hs'), hw.trans hw'⟩
    · rw [Bool.not_eq_true] at hv
      rw [resolver_on_invalid hv, resolver_on_invalid hv]
      exact ⟨.error _, hw⟩

/-- Lookups of one plan that stand for the same collection, so that as stages they have the same
results wherever the collections hold what they hold here. -/
structure Interchangeable (db : Database) (l l' : Lookup Database) : Prop where
  twins : Lookup.Like db.Twins l l'
  process : ∀ t doc, contents t = contents db →
    ((l.stage.process doc).on t).1 = ((l'.stage.process doc).on t).1

/-- An incarnation that there is not yet holds nothing. -/
theorem contents_eq_nil {db : Database} {h : Handle} (hle : db.incarnations.length ≤ h.index) :
    contents db h = [] := by
  show (db.collection h).documents = []
  rw [collection, List.getElem?_eq_none hle]
  rfl

theorem interchangeable_of_like {db : Database} {l l' : Lookup Database}
    (hlike : Lookup.Like db.Twins l l') : db.Interchangeable l l' := by
  refine ⟨hlike, fun t doc ht => ?_⟩
  obtain ⟨p, h, h', rfl, rfl, htwins⟩ := hlike
  have hcontents : contents t h = contents t h' := by
    obtain ⟨-, rfl⟩ | ⟨-, hle, hle'⟩ := htwins
    · rfl
    · rw [ht, contents_eq_nil hle, contents_eq_nil hle']
  obtain ⟨u, hu, -⟩ := (p.join h).join_comesTo doc t
  obtain ⟨u', hu', -⟩ := (p.join h').join_comesTo doc t
  calc (((Lookup.ofPlan p (target p.source h)).stage.process doc).on t).1
      = ((p.join h).row (contents t) doc).result := congrArg Prod.fst hu
    _ = ((p.join h').row (contents t) doc).result :=
      Join.row_congr ⟨p, h, h', rfl, rfl, hcontents⟩ doc
    _ = (((Lookup.ofPlan p (target p.source h')).stage.process doc).on t).1 :=
      (congrArg Prod.fst hu').symm

end Database

namespace Pipeline

/-- **Building a pipeline is all or nothing and stops at the first specification that is refused.**
This is said of every resolver that answers by the name alone, and of every database, which is left
unchanged. -/
theorem build_stops [Journal σ] {resolver : Resolver σ}
    (hname : ∀ name s t, ((resolver name false).on s).1 = ((resolver name false).on t).1)
    (specs : List Document) (s : σ) (db : Database) :
    Alone resolver Eq specs s ∧
    (∀ spec fault, Malformed spec fault →
      fault.kind = .invalidStage ∧ fault.key = stageKey spec) ∧
    Alone Database.resolver db.Interchangeable specs db ∧
    db.Unchanged ((build Database.resolver specs).on db).2 := by
  refine ⟨?_, fun spec fault hspec => hspec.kind_key,
    (build_alone db.resolver_steady specs).imp fun _ _ => Database.interchangeable_of_like, ?_⟩
  · apply (build_alone (Resolver.steady_of_name hname s) specs).imp
    rintro _ _ ⟨p, rfl⟩
    rfl
  · obtain ⟨joins, db', hbuilt, hw, -⟩ := build_on specs db
    rw [hbuilt]
    exact hw.keeps.unchanged

/-- A resolver that answers valid names with collections that hold nothing, and a pipeline whose
second stage there is not. -/
theorem build_stops_match :
    let resolver : Resolver Database := fun name _ =>
      if Database.validName name then pure ⟨name, fun _ => pure (Cursor.ofList [])⟩
      else throw (.invalidName name)
    let orders : Document := [("from", .string "orders"), ("localField", .string "name"),
      ("foreignField", .string "by"), ("as", .string "orders")]
    ((build resolver [[("$lookup", .document orders)], [("$match", .document [])], []]).on
      (.empty "shop")).1 = .error (.specification (.unknownStage "$match")) := by
  intro resolver orders
  have hname : ∀ name s t, ((resolver name false).on s).1 = ((resolver name false).on t).1 := by
    intro name s t
    simp only [resolver]
    split_ifs <;> rfl
  obtain ⟨halone, -⟩ := build_stops hname
    [[("$lookup", .document orders)], [("$match", .document [])], []] (.empty "shop")
    (.empty "shop")
  refine (halone.fails _).2 ⟨[[("$lookup", .document orders)]], _, _, rfl, ?_,
    .malformed (.unknownStage (by decide))⟩
  simp only [List.mem_singleton, forall_eq]
  exact ⟨_, .document rfl⟩

end Pipeline

end DocStore
