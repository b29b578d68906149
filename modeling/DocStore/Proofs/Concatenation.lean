import Mathlib.Tactic.Choose
import DocStore.Proofs.Pulls

/-!
# Pipelines one after the other

A pipeline can be followed by another in two ways: all documents run through the first and what
comes out of it through the second, or each document runs through both before the next is looked
at. Where the collections stay as they are, both ways come to the same documents; a failure of the
first pipeline can be preceded by one of the second.

* `Action.Settles` says that an action has the same result on all states of a kind, and keeps the
  kind. `Target.Steady` says it of the queries of a collection; `Join.steady` is the case of
  collections in which nothing is entered.
* `Stage.each` is what a function on documents comes to for several documents;
  `Pipeline.execute_settles` says that a run comes to that. `Stage.each_onward`,
  `Stage.each_onward_error` and `Stage.each_onward_eq_ok_iff` compare the two ways.
* `Pipeline.execute_append` is the main statement.
-/

namespace DocStore

variable {σ α β : Type} {among : σ → Prop}

/-! ## Actions that do not depend on the state -/

/-- On every state of a kind an action has the same result, and it leaves a state of the kind. -/
def Action.Settles (among : σ → Prop) (action : Action σ α) (result : Except Failure α) : Prop :=
  ∀ s, among s → ∃ t, action.on s = (result, t) ∧ among t

namespace Action.Settles

theorem pure (a : α) : Settles among (Pure.pure a) (.ok a) := fun s hs => ⟨s, rfl, hs⟩

theorem bind {action : Action σ α} {next : α → Action σ β} {result : Except Failure α}
    {f : α → Except Failure β} (h : Settles among action result)
    (hn : ∀ a, Settles among (next a) (f a)) : Settles among (action >>= next) (result >>= f) := by
  intro s hs
  obtain ⟨t, ht, hkept⟩ := h s hs
  have hrun : (action >>= next).on s =
      (ExceptT.bindCont next (action.on s).1).run (action.on s).2 := rfl
  rw [hrun, ht]
  cases result with
  | error e => exact ⟨t, rfl, hkept⟩
  | ok a => exact hn a t hkept

theorem note [Journal σ] (hnote : ∀ event s, among s → among (Journal.note event s))
    {action : Action σ α} {result : Except Failure α} (event : Event)
    (h : Settles among action result) :
    Settles among (do modify (Journal.note event); action) result :=
  fun s hs => h _ (hnote event s hs)

variable {action : Action σ α} {result : Except Failure α} {s : σ}

theorem fst_on (h : Settles among action result) (hs : among s) : (action.on s).1 = result := by
  obtain ⟨_, hrun, -⟩ := h s hs
  rw [hrun]

theorem snd_on (h : Settles among action result) (hs : among s) : among (action.on s).2 := by
  obtain ⟨_, hrun, hkept⟩ := h s hs
  rw [hrun]
  exact hkept

end Action.Settles

/-- The queries of a collection are answered by their filter alone, on all states of a kind. -/
def Target.Steady (among : σ → Prop) (target : Target σ) : Prop :=
  ∀ filter, ∃ answer, (target.query filter).Settles among answer

/-- A collection that answers a filter always in the same way. -/
def Target.ofAnswers (name : String) (answers : Document → Except Failure Cursor) : Target σ :=
  ⟨name, fun filter => ExceptT.mk (pure (answers filter))⟩

theorem Target.ofAnswers_steady (name : String) (answers : Document → Except Failure Cursor) :
    (ofAnswers name answers : Target σ).Steady among :=
  fun filter => ⟨answers filter, fun s hs => ⟨s, rfl, hs⟩⟩

namespace Lookup

theorem matchingEach_settles {l : Lookup σ} (hl : l.target.Steady among) (leaves : List Value) :
    ∃ found, (l.matchingEach leaves).Settles among found := by
  induction leaves with
  | nil => exact ⟨_, .pure _⟩
  | cons leaf rest ih =>
    obtain ⟨answer, hanswer⟩ := hl (l.equalityFilter leaf)
    obtain ⟨more, hmore⟩ := ih
    rw [matchingEach, matching, bind_assoc]
    exact ⟨_, hanswer.bind fun cursor => hmore.bind fun others => .pure _⟩

theorem join_settles [Journal σ] (hnote : ∀ event s, among s → among (Journal.note event s))
    {l : Lookup σ} (hl : l.target.Steady among) (doc : Document) :
    ∃ out, (l.join doc).Settles among out := by
  obtain ⟨found, hfound⟩ := matchingEach_settles hl ((doc.gather? l.localField).getD .null).leaves
  rw [← fetch_eq] at hfound
  refine ⟨_, hfound.bind (f := fun found => .ok
    (if found.isEmpty then none
    else some (doc.insert l.resultField (.array (found.map .document))))) fun found => ?_⟩
  split
  · exact .note hnote _ (.pure _)
  · exact .note hnote _ (.pure _)

end Lookup

/-! ## Stages one after the other -/

/-- A document that gets through some stages goes on through others. -/
def Stage.onward (f g : Document → Except Failure (Option Document)) (doc : Document) :
    Except Failure (Option Document) := do
  match ← f doc with
  | none => return none
  | some out => g out

theorem Action.Settles.onward {action : Action σ (Option Document)}
    {next : Document → Action σ (Option Document)}
    {f g : Document → Except Failure (Option Document)} {doc : Document}
    (h : action.Settles among (f doc)) (hn : ∀ out, (next out).Settles among (g out)) :
    Action.Settles among
      (do match ← action with
        | none => return none
        | some out => next out) (Stage.onward f g doc) := by
  refine h.bind fun passed => ?_
  cases passed with
  | none => exact .pure _
  | some out => exact hn out

theorem Stage.chain_append (first second : List (Stage σ)) (doc : Document) :
    chain (first ++ second) doc =
      (do match ← chain first doc with
        | none => return none
        | some out => chain second out) := by
  induction first generalizing doc with
  | nil => simp [chain]
  | cons stage rest ih =>
    rw [List.cons_append, chain, chain, bind_assoc]
    refine bind_congr fun out => ?_
    cases out with
    | none => simp
    | some out => exact ih out

/-- What documents come to one after the other, up to the first failure. -/
def Stage.each (f : Document → Except Failure (Option Document)) :
    List Document → Except Failure (List Document)
  | [] => .ok []
  | doc :: rest => do
    match ← f doc with
    | none => each f rest
    | some out => return out :: (← each f rest)

namespace Pipeline

theorem execute_settles {p : Pipeline σ} {f : Document → Except Failure (Option Document)}
    (hp : ∀ doc, (Stage.chain p.stages doc).Settles among (f doc)) (docs : List Document) :
    (p.execute docs).Settles among (Stage.each f docs) := by
  induction docs with
  | nil =>
    rw [execute_nil]
    exact .pure _
  | cons doc rest ih =>
    rw [execute_cons]
    refine (hp doc).bind fun out => ?_
    cases out with
    | none => exact ih
    | some out => exact ih.bind fun outs => .pure _

end Pipeline

namespace Stage

variable {f g : Document → Except Failure (Option Document)} {doc out : Document}
  {docs : List Document} {e : Failure}

theorem each_cons_none (h : f doc = .ok none) (rest : List Document) :
    each f (doc :: rest) = each f rest := by
  rw [each, h]
  rfl

theorem each_cons_some (h : f doc = .ok (some out)) (rest : List Document) :
    each f (doc :: rest) = (each f rest).map (out :: ·) := by
  rw [each, h]
  rfl

theorem each_cons_error (h : f doc = .error e) (rest : List Document) :
    each f (doc :: rest) = .error e := by
  rw [each, h]
  rfl

theorem onward_none (h : f doc = .ok none) : onward f g doc = .ok none := by
  rw [onward, h]
  rfl

theorem onward_some (h : f doc = .ok (some out)) : onward f g doc = g out := by
  rw [onward, h]
  rfl

theorem onward_error (h : f doc = .error e) : onward f g doc = .error e := by
  rw [onward, h]
  rfl

/-- Documents that all get through some stages come to what comes of them behind these. -/
theorem each_onward {mid : List Document} (h : each f docs = .ok mid) :
    each (onward f g) docs = each g mid := by
  induction docs generalizing mid with
  | nil =>
    cases h
    rfl
  | cons doc rest ih =>
    rcases hf : f doc with e | _ | out
    · rw [each_cons_error hf] at h
      cases h
    · rw [each_cons_none hf] at h
      rw [each_cons_none (onward_none hf), ih h]
    · rw [each_cons_some hf] at h
      cases hrest : each f rest with
      | error e =>
        rw [hrest] at h
        cases h
      | ok outs =>
        rw [hrest] at h
        cases h
        rw [each, each, onward_some hf, ih hrest]

/-- The first failure among documents: those before it get through. -/
theorem exists_of_each_eq_error (h : each f docs = .error e) :
    ∃ before doc after mid, docs = before ++ doc :: after ∧ each f before = .ok mid ∧
      f doc = .error e := by
  induction docs with
  | nil => cases h
  | cons doc rest ih =>
    rcases hf : f doc with e' | _ | out
    · rw [each_cons_error hf] at h
      cases h
      exact ⟨[], doc, rest, [], rfl, rfl, hf⟩
    · rw [each_cons_none hf] at h
      obtain ⟨before, bad, after, mid, rfl, hbefore, hbad⟩ := ih h
      exact ⟨doc :: before, bad, after, mid, rfl, (each_cons_none hf _).trans hbefore, hbad⟩
    · rw [each_cons_some hf] at h
      cases hrest : each f rest with
      | ok outs =>
        rw [hrest] at h
        cases h
      | error e' =>
        rw [hrest] at h
        cases h
        obtain ⟨before, bad, after, mid, rfl, hbefore, hbad⟩ := ih hrest
        refine ⟨doc :: before, bad, after, out :: mid, rfl, ?_, hbad⟩
        rw [each_cons_some hf, hbefore]
        rfl

theorem each_append (f : Document → Except Failure (Option Document)) (docs more : List Document) :
    each f (docs ++ more) = do
      let outs ← each f docs
      let others ← each f more
      return outs ++ others := by
  induction docs with
  | nil => exact (bind_pure (each f more)).symm
  | cons doc rest ih =>
    rw [List.cons_append, each, each, bind_assoc]
    refine bind_congr fun passed => ?_
    cases passed with
    | none => exact ih
    | some out => simp [ih]

/-- Where some stages fail, what comes of the documents before that has been behind them already. -/
theorem each_onward_error (h : each f docs = .error e) :
    ∃ before doc after mid, docs = before ++ doc :: after ∧ each f before = .ok mid ∧
      each f [doc] = .error e ∧
      (each (onward f g) docs = .error e ∨
        ∃ x ∈ mid, ∃ e', each g [x] = .error e' ∧ each (onward f g) docs = .error e') := by
  obtain ⟨before, doc, after, mid, rfl, hbefore, hdoc⟩ := exists_of_each_eq_error h
  refine ⟨before, doc, after, mid, rfl, hbefore, each_cons_error hdoc [], ?_⟩
  rw [each_append, each_onward hbefore, each_cons_error (onward_error hdoc)]
  cases hmid : each g mid with
  | ok outs => exact .inl rfl
  | error e' =>
    obtain ⟨_, x, _, _, rfl, -, hx⟩ := exists_of_each_eq_error hmid
    exact .inr ⟨x, by simp, e', each_cons_error hx [], rfl⟩

/-- Documents get through both where they get through some stages and what comes of them through the
others. -/
theorem each_onward_eq_ok_iff {outs : List Document} :
    each (onward f g) docs = .ok outs ↔ ∃ mid, each f docs = .ok mid ∧ each g mid = .ok outs := by
  constructor
  · intro houts
    cases hmid : each f docs with
    | ok mid => exact ⟨mid, rfl, (each_onward hmid).symm.trans houts⟩
    | error e =>
      obtain ⟨_, _, _, _, -, -, -, hfails | ⟨_, -, _, -, hfails⟩⟩ :=
        each_onward_error (g := g) hmid
      · cases houts.symm.trans hfails
      · cases houts.symm.trans hfails
  · rintro ⟨mid, hmid, houts⟩
    exact (each_onward hmid).trans houts

end Stage

namespace Pipeline

/-- The pipeline of lookups. -/
def ofLookups [Journal σ] (lookups : List (Lookup σ)) : Pipeline σ := ⟨lookups.map Lookup.stage⟩

variable [Journal σ] (hnote : ∀ event s, among s → among (Journal.note event s))

include hnote

theorem exists_chain_settles {lookups : List (Lookup σ)}
    (hl : ∀ l ∈ lookups, l.target.Steady among) :
    ∃ f : Document → Except Failure (Option Document),
      ∀ doc, (Stage.chain (ofLookups lookups).stages doc).Settles among (f doc) := by
  induction lookups with
  | nil => exact ⟨fun doc => .ok (some doc), fun doc => .pure _⟩
  | cons l rest ih =>
    obtain ⟨hfirst, hrest⟩ := List.forall_mem_cons.1 hl
    choose f hf using Lookup.join_settles hnote hfirst
    obtain ⟨g, hg⟩ := ih hrest
    exact ⟨Stage.onward f g, fun doc => (hf doc).onward hg⟩

/-- **Pipelines one after the other.** Lookups in collections that stay as they are give the same
documents whether each document runs through both pipelines or all run through the first and what
comes of them through the second; where all get through the first, both ways fail alike. Where the
first pipeline fails, the two together fail as well: with the same failure, or with one of the
second pipeline on what the first has made of a document before. -/
theorem execute_append {first second : List (Lookup σ)}
    (hfirst : ∀ l ∈ first, l.target.Steady among) (hsecond : ∀ l ∈ second, l.target.Steady among)
    {s : σ} (hs : among s) (docs : List Document) :
    let p := ofLookups first
    let q := ofLookups second
    let whole := (((p.append q).execute docs).on s).1
    let staged := (p.execute docs).on s
    let behind := fun mid => ((q.execute mid).on staged.2).1
    (∀ out, whole = .ok out ↔ ∃ mid, staged.1 = .ok mid ∧ behind mid = .ok out) ∧
      (∀ mid, staged.1 = .ok mid → whole = behind mid) ∧
      ∀ e, staged.1 = .error e →
        ∃ before doc after mid, docs = before ++ doc :: after ∧
          ((p.execute before).on s).1 = .ok mid ∧ ((p.execute [doc]).on s).1 = .error e ∧
          (whole = .error e ∨
            ∃ x ∈ mid, ∃ e', behind [x] = .error e' ∧ whole = .error e') := by
  intro p q whole staged behind
  obtain ⟨f, hf⟩ := exists_chain_settles hnote hfirst
  obtain ⟨g, hg⟩ := exists_chain_settles hnote hsecond
  have hboth : ∀ doc,
      (Stage.chain (p.append q).stages doc).Settles among (Stage.onward f g doc) := by
    intro doc
    rw [append, Stage.chain_append]
    exact (hf doc).onward hg
  -- Each run comes to what its documents come to one after the other.
  have hp : ∀ docs, ((p.execute docs).on s).1 = Stage.each f docs :=
    fun docs => (execute_settles hf docs).fst_on hs
  have hq : ∀ mid, behind mid = Stage.each g mid :=
    fun mid => (execute_settles hg mid).fst_on ((execute_settles hf docs).snd_on hs)
  have hwhole : whole = Stage.each (Stage.onward f g) docs :=
    (execute_settles hboth docs).fst_on hs
  rw [hwhole]
  simp only [staged, hp, hq]
  exact ⟨fun outs => Stage.each_onward_eq_ok_iff, fun mid => Stage.each_onward,
    fun e => Stage.each_onward_error⟩

end Pipeline

/-! ## Collections in which nothing is entered -/

@[simp] theorem Queried.contents_note [Queried σ] (event : Event) (s : σ) :
    contents (Journal.note event s) = contents s :=
  Queried.contents_of_after (Queried.after_note s event)

/-- As long as the collections hold the same, their queries are answered by the filter alone. -/
theorem Join.steady [Queried σ] (j : Join) (store : Contents) :
    (j.lookup : Lookup σ).target.Steady (contents · = store) := by
  refine fun filter => ⟨(answer (store j.target) filter).map Cursor.ofList, ?_⟩
  rintro s rfl
  obtain ⟨t, ht, hafter⟩ := Queried.query_target j.source j.target filter s
  exact ⟨t, ht, Queried.contents_of_after hafter⟩

/-- Two documents, of which the first pipeline fails on the second one. One after the other the
pipelines fail with that; together they fail before, on what comes of the first document. -/
theorem Pipeline.execute_append_refused :
    ∃ (first second : List (Lookup Database)) (db : Database) (docs : List Document),
      let p := ofLookups first
      let q := ofLookups second
      (∀ l ∈ first, l.target.Steady (contents · = contents db)) ∧
        (∀ l ∈ second, l.target.Steady (contents · = contents db)) ∧
        ((p.execute docs).on db).1 = .error .json ∧
        (((p.append q).execute docs).on db).1 = .error (.query (.unknownTopLevel "$by")) ∧
        ∃ before doc after mid, docs = before ++ doc :: after ∧
          ((p.execute before).on db).1 = .ok mid ∧
          ∃ x ∈ mid, ((q.execute [x]).on ((p.execute docs).on db).2).1 =
            .error (.query (.unknownTopLevel "$by")) := by
  obtain ⟨first, second, db, docs, hfirst, hsecond, hstaged, hwhole⟩ :
      ∃ (first second : List (Lookup Database)) (db : Database) (docs : List Document),
        (∀ l ∈ first, l.target.Steady (contents · = contents db)) ∧
          (∀ l ∈ second, l.target.Steady (contents · = contents db)) ∧
          (((ofLookups first).execute docs).on db).1 = .error .json ∧
          ((((ofLookups first).append (ofLookups second)).execute docs).on db).1 =
            .error (.query (.unknownTopLevel "$by")) := by
    -- A stock that knows one code, and a field that is named like an operator.
    refine ⟨[⟨"stock", "code", "code", "stock", .ofAnswers "stock" fun filter =>
        if (Filter.equality "code" (.string "1")).fulfilledBy filter then .ok (.ofList [filter])
        else .error .json⟩],
      [(⟨"orders", "name", "$by", "orders", ⟨0⟩⟩ : Join).lookup],
      ((Database.empty "shop").register "orders").2.insert ⟨0⟩ [[("by", .string "a")]],
      [[("name", .string "a"), ("code", .string "1")],
        [("name", .string "b"), ("code", .string "2")]],
      List.forall_mem_singleton.2 (Target.ofAnswers_steady _ _),
      List.forall_mem_singleton.2 (Join.steady _ _), ?_, ?_⟩
    · rw [execute_cons, execute_cons]
      rfl
    · rw [execute_cons]
      rfl
  refine ⟨first, second, db, docs, hfirst, hsecond, hstaged, hwhole, ?_⟩
  obtain ⟨before, doc, after, mid, hdocs, hbefore, -, hfails | ⟨x, hx, e', hbehind, hfails⟩⟩ :=
    (execute_append (fun event s hs => (Queried.contents_note event s).trans hs) hfirst hsecond rfl
      docs).2.2 _ hstaged
  · cases hfails.symm.trans hwhole
  · exact ⟨before, doc, after, mid, hdocs, hbefore, x, hx, hbehind.trans (hfails.symm.trans hwhole)⟩

end DocStore
