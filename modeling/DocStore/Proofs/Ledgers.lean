import DocStore.Proofs.Agreement
import DocStore.Proofs.Clients

/-!
# Ledgers

A ledger answers the requests of a client from records alone: which request each registered
collection came from, what the client has been given, and which documents were entered into what.
There are no collections in it. An incarnation is told by the number of the request that it came
from.

* `Ledger.step` answers a `Request`, `Ledger.run` several.
* `Ledger.Sound` is what holds of the records at any time; `Ledger.step_sound` and
  `Ledger.run_sound` say that it stays so.
* `Ledger.step_obtains` says what is given by a request for the collection of a name.
-/

namespace DocStore

/-- The records of what a client has requested. -/
structure Ledger where
  /-- The number of the next request. -/
  next : Nat
  /-- The request that the registered collection of a name came from. -/
  since : String → Option Handle
  held : List Share
  /-- The documents that were entered, and into which collection. -/
  entered : List (Handle × Document)

namespace Ledger

/-- What stands for a collection that there is not. Requests are numbered from one. -/
def vacancy : Handle := ⟨0⟩

/-- The ledger before the first request. -/
def initial : Ledger := ⟨1, fun _ => none, [], []⟩

/-- The documents that were entered into a collection, in order. -/
def documents (l : Ledger) (h : Handle) : List Document :=
  (l.entered.filter (·.1 = h)).map (·.2)

/-- The ledger with documents entered into a collection. -/
def enter (l : Ledger) (h : Handle) (docs : List Document) : Ledger :=
  { l with entered := l.entered ++ docs.map (h, ·) }

/-- What stands for the collection of a name. -/
def present (l : Ledger) (name : String) : Handle := (l.since name).getD vacancy

/-- The ledger with something more held. -/
def give (l : Ledger) (s : Share) : Ledger := { l with held := l.held ++ [s] }

/-- The ledger with a name registered by the request that is being made. -/
def register (l : Ledger) (name : String) : Ledger :=
  { l with since := Function.update l.since name (some ⟨l.next⟩) }

/-- The ledger with a name no longer registered. -/
def unregister (l : Ledger) (name : String) : Ledger :=
  { l with since := Function.update l.since name none }

/-- Give what can be read. -/
def obtain {α : Type} (l : Ledger) (result : Except Failure α) (share : α → Share) :
    Response × Ledger :=
  match result with
  | .ok a => (.given, l.give (share a))
  | .error e => (.refused e, l)

/-- The answer to a request, and the records after it but for the number of the next. -/
def respond (l : Ledger) : Request → Response × Ledger
  | .create name =>
    if !Database.validName name then (.refused (.invalidName name), l)
    else if (l.since name).isSome then (.refused (.collectionExists name), l)
    else (.given, (l.register name).give (.collection ⟨l.next⟩))
  | .drop name => (.dropped (l.since name).isSome, l.unregister name)
  | .get name =>
    match l.since name with
    | some h => (.given, l.give (.collection h))
    | none => (.nothing, l)
  | .resolve name create =>
    if !Database.validName name then (.refused (.invalidName name), l)
    else
      let l := if create && (l.since name).isNone then l.register name else l
      (.given, l.give (.reader name (l.present name)))
  | .build configuration =>
    l.obtain (Join.Plan.read configuration) fun p => .stage (p.join (l.present p.source))
  | .parse specs =>
    l.obtain (specs.mapM Join.Plan.ofSpecification) fun plans =>
      .pipeline (plans.map fun p => p.join (l.present p.source))
  | .insert i docs =>
    match l.held[i]? with
    | some (.collection h) => (.entered, l.enter h docs)
    | _ => (.nothing, l)
  | .ask i inquiry =>
    match l.held[i]?.bind (·.asked l.documents inquiry) with
    | some result => (.documents result, l)
    | none => (.nothing, l)

/-- One request. -/
def step (l : Ledger) (r : Request) : Response × Ledger :=
  let (response, after) := l.respond r
  (response, { after with next := l.next + 1 })

/-- Requests one after the other, with what they are answered with. -/
def run (l : Ledger) : List Request → List Response × Ledger
  | [] => ([], l)
  | r :: rest =>
    let (response, l) := l.step r
    let (responses, l) := l.run rest
    (response :: responses, l)

@[simp] theorem documents_enter_self (l : Ledger) (h : Handle) (docs : List Document) :
    (l.enter h docs).documents h = l.documents h ++ docs := by
  simp [documents, enter, List.filter_map, Function.comp_def]

@[simp] theorem documents_enter_of_ne (l : Ledger) {h k : Handle} (hne : h ≠ k)
    (docs : List Document) : (l.enter h docs).documents k = l.documents k := by
  simp [documents, enter, hne]

theorem documents_eq_nil {l : Ledger} {h : Handle} (hnone : ∀ entry ∈ l.entered, entry.1 ≠ h) :
    l.documents h = [] := by
  rw [documents, List.filter_eq_nil_iff.2 (by simpa using hnone), List.map_nil]

@[simp] theorem present_register (l : Ledger) (name : String) :
    (l.register name).present name = ⟨l.next⟩ := by
  simp [present, register]

theorem unregister_of_none {l : Ledger} {name : String} (h : l.since name = none) :
    l.unregister name = l := by
  rw [unregister, ← h, Function.update_eq_self]

/-! ## What a request changes -/

/-- What the answer to a request can change in the records. -/
inductive Effect (l : Ledger) (r : Request) : Response × Ledger → Prop
  | none {response : Response} : response ≠ .given → Effect l r (response, l)
  /-- Something is given that stands for registered collections or for none. -/
  | give {s : Share} : (∀ h ∈ s.targets, ∃ name, h = l.present name) →
      (∀ h, s = .collection h → ∃ name, l.since name = some h) → Effect l r (.given, l.give s)
  /-- What is given stands for a collection that has just been registered. -/
  | register {name : String} {s : Share} : l.since name = Option.none → s.targets = [⟨l.next⟩] →
      Effect l r (.given, (l.register name).give s)
  | drop {name : String} {found : Bool} : r = .drop name →
      Effect l r (.dropped found, l.unregister name)
  | enter {i : Nat} {h : Handle} {docs : List Document} : l.held[i]? = some (.collection h) →
      Effect l r (.entered, l.enter h docs)

theorem present_eq {l : Ledger} {name : String} {h : Handle} (hs : l.since name = some h) :
    l.present name = h := by
  rw [present, hs, Option.getD_some]

theorem effect_create (l : Ledger) (name : String) :
    Effect l (.create name) (l.respond (.create name)) := by
  rw [respond]
  split_ifs with hv hs
  · exact .none nofun
  · exact .none nofun
  · exact .register (by simpa using hs) rfl

theorem effect_get (l : Ledger) (name : String) :
    Effect l (.get name) (l.respond (.get name)) := by
  rw [respond]
  split
  · rename_i h hs
    refine .give (fun k hk => ⟨name, ?_⟩) fun k hk => ⟨name, ?_⟩
    · rw [present_eq hs]
      exact List.mem_singleton.1 hk
    · cases hk
      exact hs
  · exact .none nofun

theorem effect_resolve (l : Ledger) (name : String) (create : Bool) :
    Effect l (.resolve name create) (l.respond (.resolve name create)) := by
  rw [respond]
  split_ifs with hv hs
  · exact .none nofun
  · simp only [Bool.and_eq_true, Option.isNone_iff_eq_none] at hs
    exact .register hs.2 (congrArg (fun h => [h]) (l.present_register name))
  · exact .give (fun k hk => ⟨name, List.mem_singleton.1 hk⟩) nofun

theorem effect_build (l : Ledger) (configuration : Document) :
    Effect l (.build configuration) (l.respond (.build configuration)) := by
  rw [respond]
  cases Join.Plan.read configuration with
  | error e => exact .none nofun
  | ok p => exact .give (fun k hk => ⟨p.source, List.mem_singleton.1 hk⟩) nofun

theorem effect_parse (l : Ledger) (specs : List Document) :
    Effect l (.parse specs) (l.respond (.parse specs)) := by
  rw [respond]
  cases specs.mapM Join.Plan.ofSpecification with
  | error e => exact .none nofun
  | ok plans =>
    refine .give (fun k hk => ?_) nofun
    rw [Share.targets, List.map_map] at hk
    obtain ⟨p, -, rfl⟩ := List.mem_map.1 hk
    exact ⟨p.source, rfl⟩

theorem effect_insert (l : Ledger) (i : Nat) (docs : List Document) :
    Effect l (.insert i docs) (l.respond (.insert i docs)) := by
  rw [respond]
  split
  · rename_i h hi
    exact .enter hi
  · exact .none nofun

theorem effect_ask (l : Ledger) (i : Nat) (inquiry : Inquiry) :
    Effect l (.ask i inquiry) (l.respond (.ask i inquiry)) := by
  rw [respond]
  split <;> exact .none nofun

theorem respond_effect (l : Ledger) (r : Request) : Effect l r (l.respond r) := by
  cases r with
  | create name => exact l.effect_create name
  | drop name => exact .drop rfl
  | get name => exact l.effect_get name
  | resolve name create => exact l.effect_resolve name create
  | build configuration => exact l.effect_build configuration
  | parse specs => exact l.effect_parse specs
  | insert i docs => exact l.effect_insert i docs
  | ask i inquiry => exact l.effect_ask i inquiry

/-! ## What holds of the records -/

/-- What holds of the records at any time: they refer to requests that have been made, and documents
are entered only into collections that there have been. -/
structure Sound (l : Ledger) : Prop where
  next : 0 < l.next
  since : ∀ name h, l.since name = some h → 0 < h.index ∧ h.index < l.next
  /-- Whatever is held stands for collections of earlier requests, or for none. -/
  held : ∀ s ∈ l.held, ∀ h ∈ s.targets, h.index < l.next
  /-- There is a collection for every handle that is held. -/
  handles : ∀ h, .collection h ∈ l.held → 0 < h.index
  entered : ∀ entry ∈ l.entered, 0 < entry.1.index ∧ entry.1.index < l.next

theorem initial_sound : Sound initial := ⟨Nat.one_pos, nofun, nofun, nofun, nofun⟩

namespace Sound

variable {l : Ledger}

theorem present_lt (hl : l.Sound) (name : String) : (l.present name).index < l.next := by
  cases hs : l.since name with
  | none =>
    rw [present, hs]
    exact hl.next
  | some h =>
    rw [present_eq hs]
    exact (hl.since name h hs).2

/-- Nothing has been entered into a collection that is not there yet. -/
theorem documents_next (hl : l.Sound) : l.documents ⟨l.next⟩ = [] := by
  refine documents_eq_nil fun entry he heq => ?_
  have hlt := (hl.entered entry he).2
  rw [heq] at hlt
  exact Nat.lt_irrefl _ hlt

/-- Nothing is entered into a collection that there is not. -/
theorem documents_vacancy (hl : l.Sound) : l.documents vacancy = [] := by
  refine documents_eq_nil fun entry he heq => ?_
  have hpos := (hl.entered entry he).1
  rw [heq] at hpos
  exact Nat.lt_irrefl _ hpos

theorem tick (hl : l.Sound) : Sound { l with next := l.next + 1 } where
  next := Nat.succ_pos _
  since name h hs := (hl.since name h hs).imp_right Nat.lt_succ_of_lt
  held s hs h hh := Nat.lt_succ_of_lt (hl.held s hs h hh)
  handles := hl.handles
  entered entry he := (hl.entered entry he).imp_right Nat.lt_succ_of_lt

theorem give (hl : l.Sound) {s : Share} (targets : ∀ h ∈ s.targets, h.index < l.next)
    (handle : ∀ h, s = .collection h → 0 < h.index) : (l.give s).Sound where
  next := hl.next
  since := hl.since
  held t ht h hh := by
    rcases List.mem_append.1 ht with ht | ht
    · exact hl.held t ht h hh
    · rw [List.mem_singleton.1 ht] at hh
      exact targets h hh
  handles h hh := by
    rcases List.mem_append.1 hh with hh | hh
    · exact hl.handles h hh
    · exact handle h (List.mem_singleton.1 hh).symm
  entered := hl.entered

theorem register (hl : l.Sound) (name : String) :
    Sound { l.register name with next := l.next + 1 } where
  next := Nat.succ_pos _
  since other h hs := by
    rw [Ledger.register] at hs
    by_cases ho : other = name
    · subst ho
      simp only [Function.update_self, Option.some.injEq] at hs
      subst hs
      exact ⟨hl.next, Nat.lt_succ_self _⟩
    · simp only [Function.update_of_ne ho] at hs
      exact hl.tick.since other h hs
  held := hl.tick.held
  handles := hl.handles
  entered := hl.tick.entered

theorem unregister (hl : l.Sound) (name : String) : (l.unregister name).Sound where
  next := hl.next
  since other h hs := by
    rw [Ledger.unregister] at hs
    by_cases ho : other = name
    · subst ho
      simp at hs
    · simp only [Function.update_of_ne ho] at hs
      exact hl.since other h hs
  held := hl.held
  handles := hl.handles
  entered := hl.entered

theorem enter (hl : l.Sound) {h : Handle} (hh : .collection h ∈ l.held) (docs : List Document) :
    (l.enter h docs).Sound where
  next := hl.next
  since := hl.since
  held := hl.held
  handles := hl.handles
  entered entry he := by
    rcases List.mem_append.1 he with he | he
    · exact hl.entered entry he
    · obtain ⟨doc, -, rfl⟩ := List.mem_map.1 he
      exact ⟨hl.handles h hh, hl.held _ hh h (List.mem_singleton_self h)⟩

end Sound

theorem step_sound {l : Ledger} (hl : l.Sound) (r : Request) : (l.step r).2.Sound := by
  have heffect := respond_effect l r
  rw [step]
  generalize l.respond r = answered at heffect
  cases heffect with
  | none _ => exact hl.tick
  | give htargets hhandle =>
    refine hl.tick.give (fun h hh => ?_) fun h hh => ?_
    · obtain ⟨name, rfl⟩ := htargets h hh
      exact Nat.lt_succ_of_lt (hl.present_lt name)
    · obtain ⟨name, hs⟩ := hhandle h hh
      exact (hl.since name h hs).1
  | register hfree htargets =>
    -- The new collection comes from this request, which has been made once the number is moved on.
    refine (hl.register _).give (fun h hh => ?_) fun h hh => ?_
    · rw [htargets] at hh
      rw [List.mem_singleton.1 hh]
      exact Nat.lt_succ_self _
    · subst hh
      rw [Share.targets] at htargets
      rw [List.singleton_inj.1 htargets]
      exact hl.next
  | drop _ => exact (hl.unregister _).tick
  | enter hi => exact (hl.enter (List.mem_of_getElem? hi) _).tick

theorem run_sound {l : Ledger} (hl : l.Sound) (requests : List Request) :
    (l.run requests).2.Sound := by
  induction requests generalizing l with
  | nil => exact hl
  | cons r rest ih => exact ih (step_sound hl r)

/-! ## What stays -/

section

variable {l : Ledger} {name : String} {h : Handle}

/-- What is held stays held under its number. -/
theorem held_step (l : Ledger) (r : Request) : l.held <+: (l.step r).2.held := by
  have heffect := respond_effect l r
  rw [step]
  generalize l.respond r = answered at heffect
  cases heffect with
  | give _ _ | register _ _ => exact List.prefix_append _ _
  | none _ | drop _ | enter _ => exact List.prefix_rfl

theorem held_run (l : Ledger) (requests : List Request) : l.held <+: (l.run requests).2.held := by
  induction requests generalizing l with
  | nil => exact List.prefix_rfl
  | cons r rest ih => exact (held_step l r).trans (ih _)

/-- A collection stays registered until its name is dropped. -/
theorem since_step (hs : l.since name = some h) {r : Request} (hr : r ≠ .drop name) :
    (l.step r).2.since name = some h := by
  have heffect := respond_effect l r
  rw [step]
  generalize l.respond r = answered at heffect
  cases heffect with
  | none _ | give _ _ | enter _ => exact hs
  | @register other s hfree _ =>
    have hne : name ≠ other := by
      rintro rfl
      rw [hs] at hfree
      cases hfree
    exact (Function.update_of_ne hne ..).trans hs
  | @drop other found hdrop =>
    have hne : name ≠ other := by
      rintro rfl
      exact hr hdrop
    exact (Function.update_of_ne hne ..).trans hs

theorem since_run (hs : l.since name = some h) {requests : List Request}
    (hr : .drop name ∉ requests) : (l.run requests).2.since name = some h := by
  induction requests generalizing l with
  | nil => exact hs
  | cons r rest ih =>
    rw [List.mem_cons, not_or] at hr
    exact ih (since_step hs (Ne.symm hr.1)) hr.2

end

end Ledger

/-! ## What is given -/

/-- Whether a request is for something that stands for the collection of a name. -/
def Request.Obtains (name : String) : Request → Prop
  | create n | get n | resolve n _ => n = name
  | build configuration => configuration.get? "from" = some (.string name)
  | _ => False

/-- Whether a request is for lookups one of which looks in the collection of a name. -/
def Request.Looks (name : String) : Request → Prop
  | build configuration => configuration.get? "from" = some (.string name)
  | parse specs => ∃ configuration : Document,
      [(Lookup.stageName, .document configuration)] ∈ specs ∧
        configuration.get? "from" = some (.string name)
  | _ => False

/-- A share that stands for one incarnation. -/
structure Share.StandsFor (s : Share) (h : Handle) : Prop where
  targets : s.targets = [h]
  query : ∀ store filter, s.asked store (.query filter) = some (answer (store h) filter)

namespace Ledger

section

variable {l : Ledger} {name : String}

theorem obtains_create (hgiven : (l.step (.create name)).1 = .given) :
    ∃ s, (l.step (.create name)).2.held = l.held ++ [s] ∧
      s.StandsFor ((l.step (.create name)).2.present name) := by
  rw [step, respond] at hgiven ⊢
  by_cases hv : Database.validName name = true
  · by_cases hs : (l.since name).isSome = true
    · simp [hv, hs] at hgiven
    · simp only [hv, hs]
      refine ⟨.collection ⟨l.next⟩, rfl, ?_⟩
      rw [← present_register l name]
      exact ⟨rfl, fun _ _ => rfl⟩
  · simp [hv] at hgiven

theorem obtains_get (hgiven : (l.step (.get name)).1 = .given) :
    ∃ s, (l.step (.get name)).2.held = l.held ++ [s] ∧
      s.StandsFor ((l.step (.get name)).2.present name) := by
  rw [step, respond] at hgiven ⊢
  cases hs : l.since name with
  | none => simp [hs] at hgiven
  | some h =>
    refine ⟨.collection h, rfl, ?_⟩
    rw [← present_eq hs]
    exact ⟨rfl, fun _ _ => rfl⟩

theorem obtains_resolve {create : Bool} (hgiven : (l.step (.resolve name create)).1 = .given) :
    ∃ s, (l.step (.resolve name create)).2.held = l.held ++ [s] ∧
      s.StandsFor ((l.step (.resolve name create)).2.present name) := by
  rw [step, respond] at hgiven ⊢
  by_cases hv : Database.validName name = true
  · by_cases hc : (create && (l.since name).isNone) = true
    · simp only [hv, hc]
      exact ⟨.reader name _, rfl, rfl, fun _ _ => rfl⟩
    · simp only [hv, hc]
      exact ⟨.reader name _, rfl, rfl, fun _ _ => rfl⟩
  · simp [hv] at hgiven

theorem obtains_build {configuration : Document}
    (hfrom : configuration.get? "from" = some (.string name))
    (hgiven : (l.step (.build configuration)).1 = .given) :
    ∃ s, (l.step (.build configuration)).2.held = l.held ++ [s] ∧
      s.StandsFor ((l.step (.build configuration)).2.present name) := by
  rw [step, respond] at hgiven ⊢
  cases hread : Join.Plan.read configuration with
  | error e => simp [hread, obtain] at hgiven
  | ok p =>
    have hsource := Join.Plan.get?_from_of_read hread
    rw [hfrom] at hsource
    cases hsource
    exact ⟨.stage (p.join _), rfl, rfl, fun _ _ => rfl⟩

/-- What is given by a request for a collection is what stands for it afterwards. -/
theorem step_obtains {r : Request} (hr : r.Obtains name) (hgiven : (l.step r).1 = .given) :
    ∃ s, (l.step r).2.held = l.held ++ [s] ∧ s.StandsFor ((l.step r).2.present name) := by
  cases r with
  | create n =>
    cases hr
    exact obtains_create hgiven
  | get n =>
    cases hr
    exact obtains_get hgiven
  | resolve n create =>
    cases hr
    exact obtains_resolve hgiven
  | build configuration => exact obtains_build hr hgiven
  | drop _ | parse _ | insert _ _ | ask _ _ => exact hr.elim

end

/-- A collection that has just been registered is a new one, and nothing has been entered into
it. -/
theorem step_registers {l : Ledger} {r : Request} {name : String}
    (hr : r = .create name ∨ r = .resolve name true) (hfree : l.since name = none)
    (hgiven : (l.step r).1 = .given) :
    (l.step r).2.present name = ⟨l.next⟩ ∧ (l.step r).2.documents = l.documents := by
  have hv : Database.validName name = true := by
    by_contra hv
    rw [Bool.not_eq_true] at hv
    rcases hr with rfl | rfl <;> simp [step, respond, hv] at hgiven
  rcases hr with rfl | rfl
  · rw [step, respond]
    simp only [hv, hfree]
    exact ⟨l.present_register name, rfl⟩
  · rw [step, respond]
    simp only [hv, hfree]
    exact ⟨l.present_register name, rfl⟩

/-- Requests that do not ask for a collection to be created leave the names as they are. -/
theorem since_step_eq (l : Ledger) {r : Request}
    (hr : (∃ name, r = .resolve name false) ∨ (∃ configuration, r = .build configuration) ∨
      ∃ specs, r = .parse specs) : (l.step r).2.since = l.since := by
  rcases hr with ⟨name, rfl⟩ | ⟨configuration, rfl⟩ | ⟨specs, rfl⟩
  · rw [step, respond]
    by_cases hv : Database.validName name = true
    · simp only [hv]
      rfl
    · simp only [hv]
      rfl
  · rw [step, respond]
    cases Join.Plan.read configuration <;> rfl
  · rw [step, respond]
    cases specs.mapM Join.Plan.ofSpecification <;> rfl

theorem looks_build {l : Ledger} {configuration : Document} {name : String}
    (hfrom : configuration.get? "from" = some (.string name)) (hvacant : l.present name = vacancy)
    (hgiven : (l.step (.build configuration)).1 = .given) :
    ∃ s, (l.step (.build configuration)).2.held = l.held ++ [s] ∧
      ∀ store docs out, store vacancy = [] → s.asked store (.execute docs) = some (.ok out) →
        out = [] := by
  rw [step, respond] at hgiven ⊢
  cases hread : Join.Plan.read configuration with
  | error e => simp [hread, obtain] at hgiven
  | ok p =>
    have hsource := Join.Plan.get?_from_of_read hread
    rw [hfrom] at hsource
    cases hsource
    refine ⟨.stage (p.join (l.present p.source)), rfl, fun store docs out hstore hasked => ?_⟩
    rw [hvacant] at hasked
    exact Join.rows_of_empty ⟨_, List.mem_singleton_self _, hstore⟩ (Option.some.inj hasked)

theorem looks_parse {l : Ledger} {specs : List Document} {configuration : Document} {name : String}
    (hspec : [(Lookup.stageName, .document configuration)] ∈ specs)
    (hfrom : configuration.get? "from" = some (.string name)) (hvacant : l.present name = vacancy)
    (hgiven : (l.step (.parse specs)).1 = .given) :
    ∃ s, (l.step (.parse specs)).2.held = l.held ++ [s] ∧
      ∀ store docs out, store vacancy = [] → s.asked store (.execute docs) = some (.ok out) →
        out = [] := by
  rw [step, respond] at hgiven ⊢
  cases hread : specs.mapM Join.Plan.ofSpecification with
  | error e => simp [hread, obtain] at hgiven
  | ok plans =>
    refine ⟨.pipeline (plans.map fun p => p.join (l.present p.source)), rfl,
      fun store docs out hstore hasked => ?_⟩
    -- Among the lookups is the one that the specification writes.
    obtain ⟨p, hp⟩ := Filter.exists_mapM_eq_ok_iff.1 ⟨plans, hread⟩ _ hspec
    have hplan : p ∈ plans := (Filter.mem_of_mapM_eq_ok hread).2 ⟨_, hspec, hp⟩
    have hsource := Join.Plan.get?_from_of_read hp
    rw [hfrom] at hsource
    cases hsource
    refine Join.rows_of_empty ⟨_, List.mem_map_of_mem hplan, ?_⟩ (Option.some.inj hasked)
    exact (congrArg store hvacant).trans hstore

/-- Lookups in a collection that there is not give no document. -/
theorem step_looks {l : Ledger} {r : Request} {name : String} (hr : r.Looks name)
    (hfree : l.since name = none) (hgiven : (l.step r).1 = .given) :
    ∃ s, (l.step r).2.held = l.held ++ [s] ∧
      ∀ store docs out, store vacancy = [] → s.asked store (.execute docs) = some (.ok out) →
        out = [] := by
  have hvacant : l.present name = vacancy := by rw [present, hfree, Option.getD_none]
  cases r with
  | build configuration => exact looks_build hr hvacant hgiven
  | parse specs =>
    obtain ⟨configuration, hspec, hfrom⟩ := hr
    exact looks_parse hspec hfrom hvacant hgiven
  | create _ | drop _ | get _ | resolve _ _ | insert _ _ | ask _ _ => exact hr.elim

/-! ## What is asked -/

section

variable {l : Ledger} {s : Share} {i : Nat}

theorem getElem?_run (hi : l.held[i]? = some s) (requests : List Request) :
    (l.run requests).2.held[i]? = some s := by
  obtain ⟨more, hmore⟩ := held_run l requests
  have hlt : i < l.held.length := (List.getElem?_eq_some_iff.1 hi).1
  rw [← hmore, List.getElem?_append_left hlt, hi]

theorem getElem?_step (hi : l.held[i]? = some s) (r : Request) :
    (l.step r).2.held[i]? = some s := getElem?_run hi [r]

theorem step_ask (hi : l.held[i]? = some s) (inquiry : Inquiry) :
    (l.step (.ask i inquiry)).1 =
      ((s.asked l.documents inquiry).map Response.documents).getD .nothing := by
  rw [step, respond, hi, Option.bind_some]
  cases s.asked l.documents inquiry <;> rfl

theorem step_query {h : Handle} (hi : l.held[i]? = some s) (hs : s.StandsFor h)
    (filter : Document) :
    (l.step (.ask i (.query filter))).1 = .documents (answer (l.documents h) filter) := by
  rw [step_ask hi, hs.query]
  rfl

/-- What is entered into a collection is nothing to a share that does not stand for it. -/
theorem step_insert_ask {t : Share} {k : Nat} (hi : l.held[i]? = some s) (hk : l.held[k]? = some t)
    (hapart : ∀ h ∈ t.targets, h ∉ s.targets) (docs : List Document) (inquiry : Inquiry) :
    ((l.step (.insert k docs)).2.step (.ask i inquiry)).1 = (l.step (.ask i inquiry)).1 := by
  rw [step_ask hi, step_ask (getElem?_step hi _)]
  refine congrArg (fun told => (Option.map Response.documents told).getD .nothing) ?_
  refine Share.asked_congr (Share.rel_self fun o ho => ?_) inquiry
  rw [step, respond, hk]
  cases t with
  | collection h =>
    have hne : h ≠ o := by
      rintro rfl
      exact hapart h (List.mem_singleton_self h) ho
    exact documents_enter_of_ne l hne docs
  | reader _ _ | stage _ | pipeline _ => rfl

end

end Ledger

end DocStore
