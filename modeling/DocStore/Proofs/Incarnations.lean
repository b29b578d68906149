import DocStore.Proofs.Interleaving
import DocStore.Proofs.Ledgers

/-!
# Handles stand for one incarnation

A name can be dropped and registered again, and what a client holds outlives both. Whatever it holds
stands for the incarnation that it was given for, which no request changes: a ledger that knows
incarnations only by the requests that they came from gives the same answers.

* `Client.Shows` says that a client is as a ledger tells. The two know the incarnations by different
  handles; the origins of the incarnations of the database are those of the ledger.
* `Client.step_shows` and `Client.run_shows` say that requests are answered as the ledger tells, and
  that what it tells stays true.
* `Client.Alike`, `Client.Apart`, `Client.Empty` and `Client.Barren` say what holdings have in
  common and what they hold, by the answers that the client gets.
* `Client.stands_for_ever` is the main statement.
-/

namespace DocStore

namespace Client

/-! ## A client and its ledger -/

theorem rel_imp {α β : Type} {R R' : α → β → Prop} {a : Option α} {b : Option β}
    (hR : ∀ x y, R x y → R' x y) (h : Option.Rel R a b) : Option.Rel R' a b := by
  cases h with
  | none => exact .none
  | some hxy => exact .some (hR _ _ hxy)

theorem rel_getElem? {α β : Type} {R : α → β → Prop} {as : List α} {bs : List β}
    (h : List.Forall₂ R as bs) (i : Nat) : Option.Rel R as[i]? bs[i]? := by
  induction h generalizing i with
  | nil => exact .none
  | cons hab _ ih =>
    cases i with
    | zero => exact .some hab
    | succ i => exact ih i

/-- An incarnation of the database is known to the ledger by the request that it came from. The
origins of the incarnations are listed in the order in which these came into being; several can be
vacant. -/
def Traces (origins : List Handle) (h o : Handle) : Prop := origins[h.index]? = some o

theorem Traces.append {origins : List Handle} {h o : Handle} (ht : Traces origins h o)
    (more : List Handle) : Traces (origins ++ more) h o := by
  have hlt : h.index < origins.length := (List.getElem?_eq_some_iff.1 ht).1
  rw [Traces, List.getElem?_append_left hlt]
  exact ht

/-- A client is as a ledger tells. -/
structure Shows (origins : List Handle) (c : Client) (l : Ledger) : Prop where
  contents : c.database.incarnations.map (·.documents) = origins.map l.documents
  registered : ∀ name, Option.Rel (Traces origins) (c.database.get? name) (l.since name)
  held : List.Forall₂ (fun k s => ∃ t : Share, k = t.holding ∧ t.Rel (Traces origins) s)
    c.held l.held
  /-- Incarnations that there are do not share their origin. -/
  apart : origins.Pairwise fun o o' => o = o' → o = Ledger.vacancy
  known : ∀ o ∈ origins, o.index < l.next

namespace Shows

variable {origins : List Handle} {c : Client} {l : Ledger} {name : String} {h o : Handle}

theorem initial (name : String) : Shows [] (Client.initial name) .initial :=
  ⟨rfl, fun _ => .none, .nil, .nil, nofun⟩

theorem length_eq (hs : c.Shows origins l) : c.database.incarnations.length = origins.length := by
  have hlength := congrArg List.length hs.contents
  rwa [List.length_map, List.length_map] at hlength

/-- An incarnation holds what has been entered into its origin. -/
theorem store (hs : c.Shows origins l) (ht : Traces origins h o) :
    DocStore.contents c.database h = l.documents o := by
  have hdocs := congrArg (·[h.index]?) hs.contents
  simp only [List.getElem?_map] at hdocs
  rw [Traces] at ht
  rw [ht] at hdocs
  obtain ⟨collection, hcollection, hdocuments⟩ := Option.map_eq_some_iff.1 hdocs
  show (c.database.collection h).documents = _
  rw [Database.collection, hcollection]
  exact hdocuments

theorem present (hs : c.Shows origins l) (hget : c.database.get? name = some h) :
    Traces origins h (l.present name) := by
  have hrel := hs.registered name
  rw [hget] at hrel
  cases hsince : l.since name with
  | none =>
    rw [hsince] at hrel
    cases hrel
  | some o =>
    rw [hsince] at hrel
    cases hrel with
    | some ht => rwa [Ledger.present_eq hsince]

theorem since_eq_none (hs : c.Shows origins l) :
    l.since name = none ↔ c.database.get? name = none := by
  have hrel := hs.registered name
  generalize c.database.get? name = found at hrel ⊢
  generalize l.since name = request at hrel ⊢
  cases hrel <;> simp

theorem isSome_since (hs : c.Shows origins l) (name : String) :
    (l.since name).isSome = (c.database.get? name).isSome := by
  rw [Bool.eq_iff_iff, Option.isSome_iff_ne_none, Option.isSome_iff_ne_none, Ne, Ne,
    hs.since_eq_none]

theorem held_append (hs : c.Shows origins l) (more : List Handle) :
    List.Forall₂ (fun k s => ∃ t : Share, k = t.holding ∧ t.Rel (Traces (origins ++ more)) s)
      c.held l.held := by
  refine hs.held.imp ?_
  rintro k s ⟨t, hk, ht⟩
  exact ⟨t, hk, ht.imp fun _ _ htrace => htrace.append more⟩

/-- What is held under a number has a share under it. -/
theorem held_cases (hs : c.Shows origins l) (i : Nat) :
    (c.held[i]? = none ∧ l.held[i]? = none) ∨
      ∃ t s : Share, c.held[i]? = some t.holding ∧ l.held[i]? = some s ∧
        t.Rel (Traces origins) s := by
  have hrel := rel_getElem? hs.held i
  generalize c.held[i]? = held at hrel ⊢
  generalize l.held[i]? = share at hrel ⊢
  cases hrel with
  | none => exact .inl ⟨rfl, rfl⟩
  | some hks =>
    obtain ⟨t, rfl, ht⟩ := hks
    exact .inr ⟨t, _, rfl, rfl, ht⟩

/-! ### What a request does -/

theorem tick (hs : c.Shows origins l) : c.Shows origins { l with next := l.next + 1 } :=
  { hs with known := fun o ho => Nat.lt_succ_of_lt (hs.known o ho) }

theorem give (hs : c.Shows origins l) {s t : Share} (ht : t.Rel (Traces origins) s) :
    Shows origins ⟨c.database, c.held ++ [t.holding]⟩ (l.give s) :=
  { hs with held := List.rel_append hs.held (.cons ⟨t, rfl, ht⟩ .nil) }

/-- What a ledger tells stays true where only the journal of the database changes. -/
theorem same (hs : c.Shows origins l) {db : Database}
    (hincarnations : db.incarnations = c.database.incarnations)
    (hregistry : db.registry = c.database.registry) : Shows origins ⟨db, c.held⟩ l where
  contents := by rw [hincarnations, hs.contents]
  registered name := by
    rw [Database.get?, hregistry]
    exact hs.registered name
  held := hs.held
  apart := hs.apart
  known := hs.known

/-- What a ledger tells stays true where the database has more incarnations with their origins. -/
theorem append (hs : c.Shows origins l) {db : Database} {more : List Handle}
    (contents : db.incarnations.map (·.documents) =
      c.database.incarnations.map (·.documents) ++ more.map l.documents)
    (hregistry : db.registry = c.database.registry)
    (apart : (origins ++ more).Pairwise fun o o' => o = o' → o = Ledger.vacancy)
    (known : ∀ o ∈ more, o.index < l.next) : Shows (origins ++ more) ⟨db, c.held⟩ l where
  contents := by rw [contents, hs.contents, List.map_append]
  registered name := by
    rw [Database.get?, hregistry]
    exact rel_imp (fun _ _ ht => ht.append more) (hs.registered name)
  held := hs.held_append more
  apart := apart
  known := fun o ho => (List.mem_append.1 ho).elim (hs.known o) (known o)

/-- New incarnations that no name stands for are vacant. -/
theorem widen (hs : c.Shows origins l) (hl : l.Sound) {db : Database}
    (hw : c.database.Widens db) :
    ∃ more, Shows (origins ++ more) ⟨db, c.held⟩ l ∧
      ∀ name h, c.database.StandsFor name h db → Traces (origins ++ more) h (l.present name) := by
  obtain ⟨names, hnames⟩ := hw.incarnations
  have hvacant : ∀ o ∈ List.replicate names.length Ledger.vacancy, o = Ledger.vacancy :=
    fun o ho => List.eq_of_mem_replicate ho
  refine ⟨List.replicate names.length Ledger.vacancy, hs.append ?_ hw.registry ?_ ?_, ?_⟩
  · rw [hnames, List.map_append, List.map_map, List.map_replicate, hl.documents_vacancy]
    exact congrArg _ (List.map_const' ..)
  · refine List.pairwise_append.2 ⟨hs.apart, List.pairwise_replicate.2 (.inr fun _ => rfl), ?_⟩
    rintro o - o' ho' rfl
    exact hvacant o ho'
  · intro o ho
    rw [hvacant o ho]
    exact hl.next
  · rintro name h (hget | ⟨hnone, hle, hlt⟩)
    · exact (hs.present hget).append _
    · -- The name is not registered, and the incarnation is among the new ones.
      have hlt' : h.index - origins.length < names.length := by
        rw [hnames, List.length_append, List.length_map] at hlt
        have := hs.length_eq
        omega
      rw [Ledger.present, hs.since_eq_none.2 hnone, Traces,
        List.getElem?_append_right (hs.length_eq ▸ hle), List.getElem?_replicate, if_pos hlt']
      rfl

/-- A new incarnation comes from the request that is being made. -/
theorem traces_next (hs : c.Shows origins l) :
    Traces (origins ++ [⟨l.next⟩]) ⟨c.database.incarnations.length⟩ ⟨l.next⟩ := by
  rw [Traces, hs.length_eq]
  exact List.getElem?_concat_length

/-- A name is registered, for a new incarnation. -/
theorem register (hs : c.Shows origins l) (hl : l.Sound) {db : Database} {fresh : Collection}
    (hdocuments : fresh.documents = [])
    (hincarnations : db.incarnations = c.database.incarnations ++ [fresh])
    (hregistry : db.registry =
      c.database.registry.insert name ⟨c.database.incarnations.length⟩) :
    Shows (origins ++ [⟨l.next⟩]) ⟨db, c.held⟩ { l.register name with next := l.next + 1 } := by
  refine ⟨?_, fun other => ?_, ?_, ?_, ?_⟩
  · rw [hincarnations, List.map_append, List.map_append, hs.contents, List.map_singleton,
      List.map_singleton, hdocuments]
    exact congrArg (fun docs => _ ++ [docs]) hl.documents_next.symm
  · rw [Database.get?, hregistry, Ledger.register]
    by_cases ho : name = other
    · subst ho
      simp only [Catalog.find?_insert_self, Function.update_self]
      exact .some hs.traces_next
    · simp only [Catalog.find?_insert_of_ne _ _ ho, Function.update_of_ne (Ne.symm ho)]
      exact rel_imp (fun _ _ ht => ht.append _) (hs.registered other)
  · exact hs.held_append _
  · refine List.pairwise_append.2 ⟨hs.apart, List.pairwise_singleton .., ?_⟩
    rintro o ho o' ho' rfl
    rw [List.mem_singleton] at ho'
    subst ho'
    exact absurd (hs.known _ ho) (Nat.lt_irrefl _)
  · intro o ho
    rcases List.mem_append.1 ho with ho | ho
    · exact Nat.lt_succ_of_lt (hs.known o ho)
    · rw [List.mem_singleton.1 ho]
      exact Nat.lt_succ_self _

/-- A name is no longer registered. -/
theorem unregister (hs : c.Shows origins l) {db : Database}
    (hincarnations : db.incarnations = c.database.incarnations)
    (hregistry : db.registry = c.database.registry.erase name) :
    Shows origins ⟨db, c.held⟩ (l.unregister name) where
  contents := by
    rw [hincarnations, hs.contents]
    rfl
  registered other := by
    rw [Database.get?, hregistry, Ledger.unregister]
    by_cases ho : name = other
    · subst ho
      simp only [Catalog.find?_erase_self, Function.update_self]
      exact .none
    · simp only [Catalog.find?_erase_of_ne _ ho, Function.update_of_ne (Ne.symm ho)]
      exact hs.registered other
  held := hs.held
  apart := hs.apart
  known := hs.known

/-- Incarnations that hold documents do not share their origin. -/
theorem index_eq (hs : c.Shows origins l) {k : Handle} (hh : Traces origins h o)
    (hk : Traces origins k o) (ho : 0 < o.index) : h.index = k.index := by
  have hne : o ≠ Ledger.vacancy := by
    rintro rfl
    exact Nat.lt_irrefl _ ho
  obtain ⟨hlt, hgeth⟩ := List.getElem?_eq_some_iff.1 hh
  obtain ⟨hlt', hgetk⟩ := List.getElem?_eq_some_iff.1 hk
  have hapart := List.pairwise_iff_getElem.1 hs.apart
  rcases Nat.lt_trichotomy h.index k.index with hindex | hindex | hindex
  · have hvacant := hapart _ _ hlt hlt' hindex (hgeth.trans hgetk.symm)
    exact absurd (hgeth.symm.trans hvacant) hne
  · exact hindex
  · have hvacant := hapart _ _ hlt' hlt hindex (hgetk.trans hgeth.symm)
    exact absurd (hgetk.symm.trans hvacant) hne

/-- Documents are entered into one incarnation. -/
theorem enter (hs : c.Shows origins l) (ht : Traces origins h o) (ho : 0 < o.index)
    (docs : List Document) :
    Shows origins ⟨c.database.insert h docs, c.held⟩ (l.enter o docs) where
  contents := by
    rw [Session.held_insert, hs.contents]
    apply List.ext_getElem?
    intro i
    rw [List.getElem?_modify, List.getElem?_map, List.getElem?_map]
    cases hi : origins[i]? with
    | none => rfl
    | some o' =>
      -- Among the origins only that of the handle is entered into, by `apart`.
      by_cases hindex : h.index = i
      · have hsame : o' = o := by
          rw [← hindex, ht] at hi
          exact (Option.some.inj hi).symm
        simp [hindex, hsame]
      · have hne : o ≠ o' := by
          rintro rfl
          exact hindex (hs.index_eq ht (k := ⟨i⟩) hi ho)
        simp [hindex, hne]
  registered := hs.registered
  held := hs.held
  apart := hs.apart
  known := hs.known

end Shows

/-! ## Requests -/

/-- A request is answered as the ledger tells, and what it tells stays true. -/
def Agrees (origins : List Handle) (c : Client) (l : Ledger) (r : Request) : Prop :=
  (c.step r).1 = (l.step r).1 ∧ ∃ more, (c.step r).2.Shows (origins ++ more) (l.step r).2

namespace Shows

variable {origins : List Handle} {c : Client} {l : Ledger}

theorem stays (hs : c.Shows origins l) : ∃ more, c.Shows (origins ++ more) l := by
  refine ⟨[], ?_⟩
  rw [List.append_nil]
  exact hs

theorem agrees_create (hs : c.Shows origins l) (hl : l.Sound) (name : String) :
    Agrees origins c l (.create name) := by
  rw [Agrees, Ledger.step, Ledger.respond, hs.isSome_since]
  obtain ⟨hv, hstep⟩ | ⟨hv, hget, hstep⟩ | ⟨hv, hget, hstep⟩ := c.create_cases name
  · rw [hstep]
    simp only [hv]
    exact ⟨rfl, hs.tick.stays⟩
  · rw [hstep]
    simp only [hv, hget]
    exact ⟨rfl, hs.tick.stays⟩
  · have hregister : Shows (origins ++ [⟨l.next⟩])
        ⟨(c.database.register name).2.note (.collectionCreated c.database.name name), c.held⟩
        { l.register name with next := l.next + 1 } := hs.register hl rfl rfl rfl
    rw [hstep]
    simp only [hv, hget]
    exact ⟨rfl, [⟨l.next⟩], hregister.give (.collection hs.traces_next)⟩

theorem agrees_drop (hs : c.Shows origins l) (name : String) :
    Agrees origins c l (.drop name) := by
  rw [Agrees, Ledger.step, Ledger.respond, hs.isSome_since]
  obtain ⟨hget, hstep⟩ | ⟨hget, hstep⟩ := c.drop_cases name
  · rw [hstep, hget, Ledger.unregister_of_none (hs.since_eq_none.2 hget)]
    exact ⟨rfl, hs.tick.stays⟩
  · have hdrop : Shows origins ⟨{ c.database with registry := c.database.registry.erase name }.note
        (.collectionDropped c.database.name name), c.held⟩ (l.unregister name) :=
      hs.unregister rfl rfl
    rw [hstep, hget]
    exact ⟨rfl, hdrop.tick.stays⟩

theorem agrees_get (hs : c.Shows origins l) (name : String) : Agrees origins c l (.get name) := by
  rw [Agrees, step, Ledger.step, Ledger.respond]
  have hrel := hs.registered name
  generalize c.database.get? name = found at hrel ⊢
  generalize l.since name = request at hrel ⊢
  cases hrel with
  | none => exact ⟨rfl, hs.tick.stays⟩
  | some ht => exact ⟨rfl, (hs.tick.give (.collection ht)).stays⟩

theorem agrees_resolve (hs : c.Shows origins l) (hl : l.Sound) (name : String) (create : Bool) :
    Agrees origins c l (.resolve name create) := by
  rw [Agrees, Ledger.step, Ledger.respond, ← Option.not_isSome, hs.isSome_since]
  obtain ⟨hv, hstep⟩ | ⟨hv, rfl, hget, hstep⟩ | ⟨hv, hfound, h, db, hw, hstands, hstep⟩ :=
    c.resolve_cases name create
  · rw [hstep]
    simp only [hv]
    exact ⟨rfl, hs.tick.stays⟩
  · have hregister : Shows (origins ++ [⟨l.next⟩]) ⟨(c.database.register name).2, c.held⟩
        { l.register name with next := l.next + 1 } := hs.register hl rfl rfl rfl
    have ht : Traces (origins ++ [⟨l.next⟩]) ⟨c.database.incarnations.length⟩
        ((l.register name).present name) := by
      rw [Ledger.present_register]
      exact hs.traces_next
    rw [hstep]
    simp only [hv, hget]
    exact ⟨rfl, [⟨l.next⟩], hregister.give (.reader ht)⟩
  · have hkept : (create && !(c.database.get? name).isSome) = false := by
      cases create with
      | false => rfl
      | true => simp [hfound rfl]
    obtain ⟨more, hmore, htraces⟩ := hs.widen hl hw
    have hgiven := hmore.tick.give (t := .reader name h) (.reader (htraces name h hstands))
    rw [hstep]
    simp only [hv, hkept]
    exact ⟨rfl, more, hgiven⟩

theorem agrees_build (hs : c.Shows origins l) (hl : l.Sound) (configuration : Document) :
    Agrees origins c l (.build configuration) := by
  obtain ⟨h, db, hbuild, hw, hstands⟩ := Lookup.build_on configuration c.database
  obtain ⟨more, hmore, htraces⟩ := hs.widen hl hw
  rw [Agrees, step, Ledger.step, Ledger.respond]
  cases hread : Join.Plan.read configuration with
  | error e =>
    rw [hread] at hbuild
    rw [obtain_error hbuild]
    exact ⟨rfl, more, hmore.tick⟩
  | ok p =>
    rw [hread] at hbuild
    rw [obtain_ok hbuild]
    refine ⟨rfl, more, hmore.tick.give (.stage ⟨p, h, _, rfl, rfl, ?_⟩)⟩
    exact htraces p.source h (hstands p hread)

theorem agrees_parse (hs : c.Shows origins l) (hl : l.Sound) (specs : List Document) :
    Agrees origins c l (.parse specs) := by
  obtain ⟨joins, db, hbuild, hw, hmade⟩ := Pipeline.build_on specs c.database
  obtain ⟨more, hmore, htraces⟩ := hs.widen hl hw
  rw [Agrees, step, Ledger.step, Ledger.respond]
  cases hread : specs.mapM Join.Plan.ofSpecification with
  | error e =>
    rw [hread] at hbuild
    rw [obtain_error hbuild]
    exact ⟨rfl, more, hmore.tick⟩
  | ok plans =>
    rw [hread] at hbuild
    rw [obtain_ok hbuild]
    refine ⟨rfl, more, hmore.tick.give (.pipeline ?_)⟩
    rw [List.forall₂_map_right_iff]
    refine List.Forall₂.flip ((hmade plans hread).imp ?_)
    rintro p j ⟨h, rfl, hstand⟩
    exact ⟨p, h, _, rfl, rfl, htraces p.source h hstand⟩

theorem agrees_insert (hs : c.Shows origins l) (hl : l.Sound) (i : Nat) (docs : List Document) :
    Agrees origins c l (.insert i docs) := by
  rw [Agrees, step, Ledger.step, Ledger.respond]
  obtain ⟨hk, hi⟩ | ⟨t, s, hk, hi, ht⟩ := hs.held_cases i
  · rw [hk, hi]
    exact ⟨rfl, hs.tick.stays⟩
  · rw [hk, hi]
    cases ht with
    | collection ht =>
      have hpos := hl.handles _ (List.mem_of_getElem? hi)
      exact ⟨rfl, (hs.enter ht hpos docs).tick.stays⟩
    | reader _ | stage _ | pipeline _ => exact ⟨rfl, hs.tick.stays⟩

theorem agrees_ask (hs : c.Shows origins l) (i : Nat) (inquiry : Inquiry) :
    Agrees origins c l (.ask i inquiry) := by
  rw [Agrees, step, Ledger.step, Ledger.respond]
  obtain ⟨hk, hi⟩ | ⟨t, s, hk, hi, ht⟩ := hs.held_cases i
  · rw [hk, hi]
    exact ⟨rfl, hs.tick.stays⟩
  · rw [hk, hi, Option.bind_some, Option.bind_some]
    -- The share of the client answers as that of the ledger, since both hold the same documents.
    have hsame : t.asked (DocStore.contents c.database) inquiry = s.asked l.documents inquiry :=
      Share.asked_congr (ht.imp fun _ _ htrace => hs.store htrace) inquiry
    have hasked := t.asked_comesTo inquiry c.database
    rw [hsame] at hasked
    generalize t.holding.asked inquiry = asked at hasked ⊢
    generalize s.asked l.documents inquiry = told at hasked ⊢
    cases hasked with
    | none => exact ⟨rfl, hs.tick.stays⟩
    | @some action result hresult =>
      obtain ⟨qs, db, hrun, events, rfl⟩ := hresult
      have hon : action.on c.database = (result, c.database.noted events) := hrun
      have hnoted : Shows origins ⟨c.database.noted events, c.held⟩ l := hs.same rfl rfl
      simp only [hon]
      exact ⟨trivial, hnoted.tick.stays⟩

end Shows

/-- One request is answered as the ledger tells, and what it tells stays true. -/
theorem step_shows {origins : List Handle} {c : Client} {l : Ledger} (hs : c.Shows origins l)
    (hl : l.Sound) (r : Request) : Agrees origins c l r := by
  cases r with
  | create name => exact hs.agrees_create hl name
  | drop name => exact hs.agrees_drop name
  | get name => exact hs.agrees_get name
  | resolve name create => exact hs.agrees_resolve hl name create
  | build configuration => exact hs.agrees_build hl configuration
  | parse specs => exact hs.agrees_parse hl specs
  | insert i docs => exact hs.agrees_insert hl i docs
  | ask i inquiry => exact hs.agrees_ask i inquiry

/-- A run is answered as the ledger tells, and what it tells stays true. -/
theorem run_shows {origins : List Handle} {c : Client} {l : Ledger} (hs : c.Shows origins l)
    (hl : l.Sound) (requests : List Request) :
    (c.run requests).1 = (l.run requests).1 ∧
      ∃ more, (c.run requests).2.Shows (origins ++ more) (l.run requests).2 := by
  induction requests generalizing c l origins with
  | nil => exact ⟨rfl, hs.stays⟩
  | cons r rest ih =>
    obtain ⟨hresponse, more, hnext⟩ := step_shows hs hl r
    obtain ⟨hresponses, others, hlast⟩ := ih hnext (Ledger.step_sound hl r)
    refine ⟨?_, more ++ others, ?_⟩
    · show (c.step r).1 :: ((c.step r).2.run rest).1 = (l.step r).1 :: ((l.step r).2.run rest).1
      rw [hresponse, hresponses]
    · rw [← List.append_assoc]
      exact hlast

/-! ## What holdings have in common -/

/-- Two holdings answer queries alike, whatever is requested before they are asked. -/
def Alike (c : Client) (i k : Nat) : Prop :=
  ∀ requests filter, ∃ result,
    ((c.run requests).2.step (.ask i (.query filter))).1 = .documents result ∧
      ((c.run requests).2.step (.ask k (.query filter))).1 = .documents result

/-- What is entered through either of two holdings is nothing to the other, whatever is requested
before. -/
def Apart (c : Client) (i k : Nat) : Prop :=
  ∀ requests docs inquiry, let last := (c.run requests).2
    ((last.step (.insert i docs)).2.step (.ask k inquiry)).1 = (last.step (.ask k inquiry)).1 ∧
      ((last.step (.insert k docs)).2.step (.ask i inquiry)).1 = (last.step (.ask i inquiry)).1

/-- A holding answers queries as a collection without documents. -/
def Empty (c : Client) (i : Nat) : Prop :=
  ∀ filter, (c.step (.ask i (.query filter))).1 = .documents (answer [] filter)

/-- A holding gives no documents. -/
def Barren (c : Client) (i : Nat) : Prop :=
  ∀ docs out, (c.step (.ask i (.execute docs))).1 = .documents (.ok out) → out = []

/-- A ledger tells of a client. -/
def Told (c : Client) (l : Ledger) : Prop := l.Sound ∧ ∃ origins, c.Shows origins l

namespace Told

variable {c : Client} {l : Ledger} {collection : String} {r : Request}

theorem initial (name : String) : Told (initial name) .initial :=
  ⟨Ledger.initial_sound, [], .initial name⟩

theorem step (ht : Told c l) (r : Request) :
    (c.step r).1 = (l.step r).1 ∧ Told (c.step r).2 (l.step r).2 := by
  obtain ⟨hl, origins, hs⟩ := ht
  obtain ⟨hresponse, more, hnext⟩ := step_shows hs hl r
  exact ⟨hresponse, Ledger.step_sound hl r, _, hnext⟩

theorem run (ht : Told c l) (requests : List Request) :
    (c.run requests).1 = (l.run requests).1 ∧ Told (c.run requests).2 (l.run requests).2 := by
  obtain ⟨hl, origins, hs⟩ := ht
  obtain ⟨hresponses, more, hlast⟩ := run_shows hs hl requests
  exact ⟨hresponses, Ledger.run_sound hl requests, _, hlast⟩

theorem length_eq (ht : Told c l) : c.held.length = l.held.length := by
  obtain ⟨-, origins, hs⟩ := ht
  exact hs.held.length_eq

theorem since_eq_none (ht : Told c l) (hget : c.database.get? collection = none) :
    l.since collection = none := by
  obtain ⟨-, origins, hs⟩ := ht
  exact hs.since_eq_none.2 hget

theorem exists_since (ht : Told c l) (hget : (c.database.get? collection).isSome) :
    ∃ h, l.since collection = some h := by
  obtain ⟨-, origins, hs⟩ := ht
  rw [← hs.isSome_since] at hget
  exact Option.isSome_iff_exists.1 hget

/-- What is given stands under the next number. -/
theorem getElem?_given (ht : Told c l) {s : Share} (hheld : (l.step r).2.held = l.held ++ [s]) :
    (l.step r).2.held[c.held.length]? = some s := by
  rw [hheld, ht.length_eq, List.getElem?_concat_length]

theorem query (ht : Told c l) {s : Share} {i : Nat} {h : Handle} (hi : l.held[i]? = some s)
    (hs : s.StandsFor h) (filter : Document) :
    (c.step (.ask i (.query filter))).1 = .documents (answer (l.documents h) filter) :=
  (ht.step _).1.trans (Ledger.step_query hi hs filter)

theorem insert_ask (ht : Told c l) {s t : Share} {i k : Nat} (hi : l.held[i]? = some s)
    (hk : l.held[k]? = some t) (hapart : ∀ h ∈ t.targets, h ∉ s.targets) (docs : List Document)
    (inquiry : Inquiry) :
    ((c.step (.insert k docs)).2.step (.ask i inquiry)).1 = (c.step (.ask i inquiry)).1 := by
  have hasked := ((ht.step (.insert k docs)).2.step (.ask i inquiry)).1
  rw [hasked, (ht.step _).1]
  exact Ledger.step_insert_ask hi hk hapart docs inquiry

/-- What is given for a name as long as it stays registered answers alike. -/
theorem alike (ht : Told c l) (hr : r.Obtains collection) (hgiven : (c.step r).1 = .given)
    (hget : ((c.step r).2.database.get? collection).isSome) {between : List Request}
    (hbetween : .drop collection ∉ between) {r' : Request} (hr' : r'.Obtains collection)
    (hgiven' : (((c.step r).2.run between).2.step r').1 = .given) :
    (((c.step r).2.run between).2.step r').2.Alike c.held.length
      ((c.step r).2.run between).2.held.length := by
  obtain ⟨hresponse, ht₁⟩ := ht.step r
  obtain ⟨-, ht₂⟩ := ht₁.run between
  obtain ⟨hresponse', ht₃⟩ := ht₂.step r'
  obtain ⟨s, hheld, hs⟩ := Ledger.step_obtains hr (hresponse.symm.trans hgiven)
  obtain ⟨s', hheld', hs'⟩ := Ledger.step_obtains hr' (hresponse'.symm.trans hgiven')
  -- Both stand for the collection that is registered after the first request.
  obtain ⟨h, hsince⟩ := ht₁.exists_since hget
  have hdrop : r' ≠ .drop collection := by
    rintro rfl
    exact hr'
  rw [Ledger.present_eq hsince] at hs
  rw [Ledger.present_eq (Ledger.since_step (Ledger.since_run hsince hbetween) hdrop)] at hs'
  have hi := Ledger.getElem?_step (Ledger.getElem?_run (ht.getElem?_given hheld) between) r'
  have hi' := ht₂.getElem?_given hheld'
  intro requests filter
  obtain ⟨-, ht₄⟩ := ht₃.run requests
  exact ⟨_, ht₄.query (Ledger.getElem?_run hi requests) hs filter,
    ht₄.query (Ledger.getElem?_run hi' requests) hs' filter⟩

/-- A collection that is created starts empty, and what is given for it has nothing to do with what
was given before. -/
theorem created (ht : Told c l) (hr : r = .create collection ∨ r = .resolve collection true)
    (hget : c.database.get? collection = none) (hgiven : (c.step r).1 = .given) :
    (c.step r).2.Empty c.held.length ∧
      ∀ k < c.held.length, (c.step r).2.Apart k c.held.length := by
  obtain ⟨hresponse, ht₁⟩ := ht.step r
  have hobtains : r.Obtains collection := by rcases hr with rfl | rfl <;> exact rfl
  obtain ⟨s, hheld, hs⟩ := Ledger.step_obtains hobtains (hresponse.symm.trans hgiven)
  obtain ⟨hpresent, hdocuments⟩ :=
    Ledger.step_registers hr (ht.since_eq_none hget) (hresponse.symm.trans hgiven)
  rw [hpresent] at hs
  have hi := ht.getElem?_given hheld
  refine ⟨fun filter => ?_, fun k hk requests docs inquiry => ?_⟩
  · rw [ht₁.query hi hs, hdocuments, ht.1.documents_next]
  · -- What was given before stands for collections of earlier requests.
    rw [ht.length_eq] at hk
    have hkt : l.held[k]? = some l.held[k] := List.getElem?_eq_getElem hk
    have hapart : ∀ h ∈ l.held[k].targets, h ∉ s.targets := by
      intro h hh hsame
      rw [hs.targets, List.mem_singleton] at hsame
      subst hsame
      exact Nat.lt_irrefl _ (ht.1.held _ (List.getElem_mem hk) _ hh)
    obtain ⟨-, ht₂⟩ := ht₁.run requests
    have hi₂ := Ledger.getElem?_run hi requests
    have hk₂ := Ledger.getElem?_run (Ledger.getElem?_step hkt r) requests
    exact ⟨ht₂.insert_ask hi₂ hk₂ hapart docs inquiry,
      ht₂.insert_ask hk₂ hi₂ (fun h hh hh' => hapart h hh' hh) docs inquiry⟩

/-- What is given for a collection that there is not, and that is not created, stays empty. -/
theorem absent (ht : Told c l) (hr : r = .resolve collection false ∨
      ∃ configuration, r = .build configuration ∧
        configuration.get? "from" = some (.string collection))
    (hget : c.database.get? collection = none) (hgiven : (c.step r).1 = .given)
    (after : List Request) : ((c.step r).2.run after).2.Empty c.held.length := by
  obtain ⟨hresponse, ht₁⟩ := ht.step r
  have hobtains : r.Obtains collection := by
    rcases hr with rfl | ⟨configuration, rfl, hfrom⟩
    · rfl
    · exact hfrom
  have hsince : (l.step r).2.since = l.since := by
    refine Ledger.since_step_eq l ?_
    rcases hr with rfl | ⟨configuration, rfl, -⟩
    · exact .inl ⟨_, rfl⟩
    · exact .inr (.inl ⟨_, rfl⟩)
  have hvacant : (l.step r).2.present collection = Ledger.vacancy := by
    rw [Ledger.present, hsince, ht.since_eq_none hget, Option.getD_none]
  obtain ⟨s, hheld, hs⟩ := Ledger.step_obtains hobtains (hresponse.symm.trans hgiven)
  rw [hvacant] at hs
  obtain ⟨-, ht₂⟩ := ht₁.run after
  intro filter
  rw [ht₂.query (Ledger.getElem?_run (ht.getElem?_given hheld) after) hs, ht₂.1.documents_vacancy]

/-- Lookups in a collection that there is not give no document. -/
theorem barren (ht : Told c l) (hr : r.Looks collection)
    (hget : c.database.get? collection = none) (hgiven : (c.step r).1 = .given)
    (after : List Request) : ((c.step r).2.run after).2.Barren c.held.length := by
  obtain ⟨hresponse, ht₁⟩ := ht.step r
  obtain ⟨s, hheld, hs⟩ :=
    Ledger.step_looks hr (ht.since_eq_none hget) (hresponse.symm.trans hgiven)
  obtain ⟨-, ht₂⟩ := ht₁.run after
  intro docs out hout
  refine hs _ docs out ht₂.1.documents_vacancy ?_
  rw [(ht₂.step _).1, Ledger.step_ask (Ledger.getElem?_run (ht.getElem?_given hheld) after)] at hout
  cases hasked : s.asked ((l.step r).2.run after).2.documents (.execute docs) with
  | none =>
    rw [hasked] at hout
    cases hout
  | some result =>
    rw [hasked] at hout
    cases hout
    rfl

end Told

/-- **What a client is given stands for one incarnation for ever.** The requests of a client are
answered as a ledger tells, which knows only what was entered into what. What is given for a name
while it stays registered answers alike; a collection that is created starts empty and shares no
document with anything given before; what is given for a collection that there is not, without
creating it, stays empty whatever becomes of the name. -/
theorem stands_for_ever (name : String) :
    (∀ requests, ((initial name).run requests).1 = (Ledger.initial.run requests).1) ∧
    ∀ before collection r,
      let c := ((initial name).run before).2
      let i := c.held.length
      let given := (c.step r).2
      (c.step r).1 = .given →
        (r.Obtains collection → (given.database.get? collection).isSome →
          ∀ between r', .drop collection ∉ between → r'.Obtains collection →
            let later := (given.run between).2
            (later.step r').1 = .given → (later.step r').2.Alike i later.held.length) ∧
        (c.database.get? collection = none →
          (r = .create collection ∨ r = .resolve collection true →
            given.Empty i ∧ ∀ k < i, given.Apart k i) ∧
          (r = .resolve collection false ∨ (∃ configuration, r = .build configuration ∧
              configuration.get? "from" = some (.string collection)) →
            ∀ after, (given.run after).2.Empty i) ∧
          (r.Looks collection → ∀ after, (given.run after).2.Barren i)) := by
  refine ⟨fun requests => ((Told.initial name).run requests).1, fun before collection r => ?_⟩
  intro c i given hgiven
  have ht : Told c _ := ((Told.initial name).run before).2
  refine ⟨?_, fun hget => ⟨?_, ?_, ?_⟩⟩
  · intro hr hget between r' hbetween hr' later hgiven'
    exact ht.alike hr hgiven hget hbetween hr' hgiven'
  · exact fun hr => ht.created hr hget hgiven
  · exact fun hr after => ht.absent hr hget hgiven after
  · exact fun hr after => ht.barren hr hget hgiven after

/-- The handle of a creation and that of the registered collection, the handle of a collection that
has been dropped and that of the new one, a reader and a lookup of a collection that there is not
yet. -/
theorem stands_for_ever_orders :
    ((initial "shop").run
      [.create "orders", .insert 0 [[("by", .string "a")]], .get "orders"]).2.Alike 0 1 ∧
    (let c := ((initial "shop").run [.create "orders", .insert 0 [[("by", .string "a")]],
        .drop "orders", .create "orders"]).2
     c.Empty 1 ∧ c.Apart 0 1) ∧
    ((initial "shop").run [.resolve "orders" false, .create "orders",
      .insert 1 [[("by", .string "a")]]]).2.Empty 0 ∧
    ((initial "shop").run [.build [("from", .string "orders"), ("localField", .string "name"),
        ("foreignField", .string "by"), ("as", .string "orders")], .create "orders",
      .insert 1 [[("by", .string "a")]]]).2.Barren 0 := by
  refine ⟨?_, ?_, ?_, ?_⟩
  · exact ((stands_for_ever "shop").2 [] "orders" (.create "orders") rfl).1 rfl rfl
      [.insert 0 [[("by", .string "a")]]] (.get "orders") (by simp) rfl rfl
  · obtain ⟨hempty, hapart⟩ := (((stands_for_ever "shop").2 [.create "orders",
      .insert 0 [[("by", .string "a")]], .drop "orders"] "orders" (.create "orders") rfl).2 rfl).1
      (.inl rfl)
    exact ⟨hempty, hapart 0 (by decide)⟩
  · exact (((stands_for_ever "shop").2 [] "orders" (.resolve "orders" false) rfl).2 rfl).2.1
      (.inl rfl) [.create "orders", .insert 1 [[("by", .string "a")]]]
  · exact (((stands_for_ever "shop").2 [] "orders" (.build [("from", .string "orders"),
        ("localField", .string "name"), ("foreignField", .string "by"),
        ("as", .string "orders")]) rfl).2 rfl).2.2 rfl
      [.create "orders", .insert 1 [[("by", .string "a")]]]

end Client

end DocStore
