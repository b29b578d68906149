import DocStore.Database.Access
import DocStore.Lookup

/-!
# Queries and what they come to

A lookup knows the store only through a target, and what it does is told here by the documents that
the store holds: which queries are made for a document, in which order, and what comes of them.

* `Queried σ` says that the collections of a state answer queries, and that queries do not change
  what the collections hold; databases are such states.
* `Outcome` is what work comes to: the queries that are made for it and its result.
* `Join` is a lookup in a collection. `Join.row` is what it comes to for a document, from the
  contents of the store alone.
* `Join.join_comesTo` is the main statement: the lookup does what `Join.row` tells, on every such
  state.
-/

namespace DocStore

/-! ## Queries and outcomes -/

/-- A query of an incarnation. -/
structure Query where
  target : Handle
  filter : Document

/-- What the incarnations hold. -/
abbrev Contents := Handle → List Document

/-- The answer to a filter document: the documents that fulfil it, in order. -/
def answer (stored : List Document) (filter : Document) : Except Failure (List Document) :=
  match Filter.ofDocument filter with
  | .ok f => .ok (stored.filter f.fulfilledBy)
  | .error fault => .error (.query fault)

/-- What work comes to: the queries made for it, in order, and its result. -/
structure Outcome (α : Type) where
  queries : List Query
  result : Except Failure α

namespace Outcome

variable {α β : Type}

/-- An outcome, and then the next unless the work failed. -/
def andThen (outcome : Outcome α) (next : α → Outcome β) : Outcome β :=
  match outcome.result with
  | .ok a => ⟨outcome.queries ++ (next a).queries, (next a).result⟩
  | .error e => ⟨outcome.queries, .error e⟩

instance : Monad Outcome where
  pure a := ⟨[], .ok a⟩
  bind := andThen

theorem result_bind (outcome : Outcome α) (next : α → Outcome β) :
    (outcome >>= next).result = outcome.result.bind fun a => (next a).result := by
  show (outcome.andThen next).result = _
  rw [andThen]
  cases outcome.result <;> rfl

end Outcome

/-! ## States whose collections answer queries -/

/-- A state whose collections answer queries. A state after queries may differ in what is noted, but
not in what the collections hold. -/
class Queried (σ : Type) extends Journal σ where
  /-- An incarnation as a target of queries. -/
  target : String → Handle → Target σ
  contents : σ → Contents
  /-- The second state is the first after queries. -/
  After : σ → List Query → σ → Prop
  after_nil (s : σ) : After s [] s
  after_note (s : σ) (event : Event) : After s [] (note event s)
  after_append {s t u : σ} {qs rs : List Query} : After s qs t → After t rs u → After s (qs ++ rs) u
  contents_of_after {s t : σ} {qs : List Query} : After s qs t → contents t = contents s
  query_target (name : String) (h : Handle) (filter : Document) (s : σ) :
    ∃ t, ((target name h).query filter).on s =
      ((answer (contents s h) filter).map Cursor.ofList, t) ∧ After s [⟨h, filter⟩] t

export Queried (contents After)

namespace Database

/-- The database with more events noted. -/
def noted (db : Database) (events : List Event) : Database :=
  { db with journal := db.journal ++ events }

theorem query_eq (db : Database) (h : Handle) (filter : Document) :
    ∃ events, (Action.ofStep fun db : Database => db.query h filter).on db =
      ((answer (db.collection h).documents filter).map Cursor.ofList, db.noted events) := by
  rw [Action.on, Action.ofStep, ExceptT.run_mk, query, answer]
  cases Filter.ofDocument filter with
  | ok f => exact ⟨[.found _ _ _], rfl⟩
  | error fault => exact ⟨[], by simp [noted, Except.map]⟩

instance : Queried Database where
  target := Database.target
  contents db h := (db.collection h).documents
  After db _ db' := ∃ events, db' = db.noted events
  after_nil db := ⟨[], by simp [noted]⟩
  after_note db event := ⟨[event], rfl⟩
  after_append := by
    rintro db _ _ - - ⟨events, rfl⟩ ⟨more, rfl⟩
    exact ⟨events ++ more, by simp [noted]⟩
  contents_of_after := by
    rintro db _ - ⟨events, rfl⟩
    rfl
  query_target _ h filter db := by
    obtain ⟨events, he⟩ := query_eq db h filter
    exact ⟨_, he, events, rfl⟩

end Database

section

variable {σ α β : Type} [Queried σ]

/-- A program on a state gives an answer, and leaves the state as it is after queries. -/
def Gives (program : StateM σ α) (s : σ) (a : α) (qs : List Query) : Prop :=
  ∃ t, program.run s = (a, t) ∧ After s qs t

namespace Gives

theorem pure (a : α) (s : σ) : Gives (Pure.pure a) s a [] := ⟨s, rfl, Queried.after_nil s⟩

theorem bind {program : StateM σ α} {next : α → StateM σ β} {s : σ} {a : α} {b : β}
    {qs rs : List Query} (h : Gives program s a qs)
    (hn : ∀ t, contents t = contents s → Gives (next a) t b rs) :
    Gives (program >>= next) s b (qs ++ rs) := by
  obtain ⟨t, ht, hafter⟩ := h
  obtain ⟨u, hu, hafter'⟩ := hn t (Queried.contents_of_after hafter)
  refine ⟨u, ?_, Queried.after_append hafter hafter'⟩
  rw [StateT.run_bind, ht]
  exact hu

end Gives

/-- On a state an action comes to an outcome, and leaves the state as it is after the queries. -/
def ComesTo (action : Action σ α) (s : σ) (outcome : Outcome α) : Prop :=
  Gives action.run s outcome.result outcome.queries

namespace ComesTo

theorem pure (a : α) (s : σ) : ComesTo (Pure.pure a) s (Pure.pure a) := Gives.pure _ s

theorem throw (e : Failure) (s : σ) : ComesTo (throw e) s (⟨[], .error e⟩ : Outcome α) :=
  Gives.pure _ s

theorem bind {action : Action σ α} {next : α → Action σ β} {s : σ} {outcome : Outcome α}
    {nextOutcome : α → Outcome β} (h : ComesTo action s outcome)
    (hn : ∀ a t, contents t = contents s → ComesTo (next a) t (nextOutcome a)) :
    ComesTo (action >>= next) s (outcome >>= nextOutcome) := by
  obtain ⟨queries, result⟩ := outcome
  cases result with
  | error e =>
    have hstop : Gives (action.run >>= ExceptT.bindCont next) s (.error e) (queries ++ []) :=
      Gives.bind h fun t _ => .pure _ t
    rw [List.append_nil] at hstop
    exact hstop
  | ok a =>
    have hmore : Gives (action.run >>= ExceptT.bindCont next) s (nextOutcome a).result
        (queries ++ (nextOutcome a).queries) := Gives.bind h fun t ht => hn a t ht
    exact hmore

/-- A program that cannot fail, and then an action. -/
theorem after {program : StateM σ α} {next : α → Action σ β} {s : σ} {a : α} {qs rs : List Query}
    {result : Except Failure β} (h : Gives program s a qs)
    (hn : ∀ t, contents t = contents s → ComesTo (next a) t ⟨rs, result⟩) :
    ComesTo (liftM program >>= next) s ⟨qs ++ rs, result⟩ := by
  have hrun : Gives (program >>= fun a => (next a).run) s result (qs ++ rs) := h.bind hn
  exact hrun

theorem note {action : Action σ α} (event : Event) {s : σ} {outcome : Outcome α}
    (h : ∀ t, contents t = contents s → ComesTo action t outcome) :
    ComesTo (do modify (Journal.note event); action) s outcome := by
  have hnote : Gives (modify (Journal.note event)) s PUnit.unit [] :=
    ⟨_, rfl, Queried.after_note s event⟩
  have hrun : ComesTo (liftM (modify (Journal.note event) : StateM σ PUnit) >>= fun _ => action) s
    ⟨[] ++ outcome.queries, outcome.result⟩ := ComesTo.after hnote h
  exact hrun

end ComesTo

end

/-! ## Lookups in collections -/

namespace Lookup

variable {σ : Type}

/-- The matches of values that are no arrays, one after the other. -/
def matchingEach (l : Lookup σ) : List Value → Action σ (List Document)
  | [] => return []
  | leaf :: rest => do
    let found ← l.matching leaf
    let more ← l.matchingEach rest
    return found ++ more

theorem matchingEach_append (l : Lookup σ) (some more : List Value) :
    l.matchingEach (some ++ more) = do
      let found ← l.matchingEach some
      let others ← l.matchingEach more
      return found ++ others := by
  induction some with
  | nil => simp [matchingEach]
  | cons leaf rest ih =>
    simp only [List.cons_append, matchingEach, ih, bind_assoc, pure_bind, List.append_assoc]

mutual

/-- The matches of a value are those of its leaves. -/
theorem fetch_eq (l : Lookup σ) : ∀ value : Value, l.fetch value = l.matchingEach value.leaves
  | .array items => by rw [fetch, Value.leaves, fetchEach_eq l items]
  | .null | .bool _ | .int _ | .long _ | .double _ | .decimal _ | .string _ | .document _
  | .objectId _ | .date _ | .timestamp _ _ | .binary _ _ | .regex _ _ | .javaScript _
  | .javaScriptWithScope _ _ | .symbol _ | .undefined | .minKey | .maxKey | .dbPointer _ _ => by
    simp [fetch, Value.leaves, matchingEach]

theorem fetchEach_eq (l : Lookup σ) : ∀ items : List Value,
    l.fetchEach items = l.matchingEach (Value.leavesItems items)
  | [] => rfl
  | value :: rest => by
    rw [fetchEach, fetch_eq l value, fetchEach_eq l rest, Value.leavesItems, matchingEach_append]

end

end Lookup

namespace Document

/-- The document with a field set: in the place of the first of its name, at the end where there is
none. -/
def withField (doc : Document) (key : String) (value : Value) : Document :=
  doc.takeWhile (·.1 != key) ++ (key, value) :: (doc.dropWhile (·.1 != key)).tail

theorem insert_eq_withField (doc : Document) (key : String) (value : Value) :
    doc.insert key value = doc.withField key value := by
  induction doc with
  | nil => rfl
  | cons field rest ih =>
    obtain ⟨k, v⟩ := field
    by_cases hk : k = key
    · simp [insert, withField, hk]
    · simpa [insert, withField, hk] using ih

end Document

/-- A lookup in an incarnation. -/
structure Join where
  source : String
  localField : String
  foreignField : String
  resultField : String
  target : Handle

namespace Join

/-- The lookup on a state whose collections answer queries. -/
def lookup {σ : Type} [Queried σ] (j : Join) : Lookup σ :=
  ⟨j.source, j.localField, j.foreignField, j.resultField, Queried.target j.source j.target⟩

/-- The query that a value that is no array makes. -/
def query (j : Join) (value : Value) : Query :=
  ⟨j.target, (j.lookup : Lookup Database).equalityFilter value⟩

/-- What the queries of values that are no arrays come to, one after the other. -/
def found (j : Join) (store : Contents) : List Value → Outcome (List Document)
  | [] => return []
  | leaf :: rest => do
    let found ← ⟨[j.query leaf], answer (store j.target) (j.query leaf).filter⟩
    let more ← j.found store rest
    return found ++ more

/-- What the lookup comes to for a document: the document with its matches, or nothing where there
are none. -/
def row (j : Join) (store : Contents) (doc : Document) : Outcome (Option Document) := do
  let found ← j.found store ((doc.gather? j.localField).getD .null).leaves
  if found.isEmpty then return none
  else return some (doc.withField j.resultField (.array (found.map .document)))

variable {σ : Type} [Queried σ]

theorem matching_comesTo (j : Join) (value : Value) (s : σ) :
    ComesTo ((j.lookup : Lookup σ).matching value) s
      ⟨[j.query value], answer (contents s j.target) (j.query value).filter⟩ := by
  have hquery : ComesTo ((j.lookup : Lookup σ).target.query (j.query value).filter) s
      ⟨[j.query value], (answer (contents s j.target) (j.query value).filter).map .ofList⟩ :=
    Queried.query_target j.source j.target (j.query value).filter s
  have hrest := hquery.bind fun cursor t _ => ComesTo.pure cursor.rest t
  -- A cursor that has not been moved has the whole answer still to come.
  cases hanswer : answer (contents s j.target) (j.query value).filter with
  | error e =>
    rw [hanswer] at hrest
    exact hrest
  | ok docs =>
    rw [hanswer] at hrest
    exact hrest

theorem matchingEach_comesTo (j : Join) (leaves : List Value) (s : σ) :
    ComesTo ((j.lookup : Lookup σ).matchingEach leaves) s (j.found (contents s) leaves) := by
  induction leaves generalizing s with
  | nil => exact .pure _ _
  | cons leaf rest ih =>
    refine (j.matching_comesTo leaf s).bind fun found t ht => ?_
    rw [← ht]
    exact (ih t).bind fun more u hu => .pure _ _

/-- The matches of a document are those of the leaves of its local value. -/
theorem resolve_comesTo (j : Join) (doc : Document) (s : σ) :
    ComesTo ((j.lookup : Lookup σ).resolve doc) s
      (j.found (contents s) ((doc.gather? j.localField).getD .null).leaves) := by
  rw [Lookup.resolve, Lookup.fetch_eq]
  exact j.matchingEach_comesTo _ s

/-- **A lookup does what its rows tell.** -/
theorem join_comesTo (j : Join) (doc : Document) (s : σ) :
    ComesTo ((j.lookup : Lookup σ).join doc) s (j.row (contents s) doc) := by
  refine (j.resolve_comesTo doc s).bind fun found t ht => ?_
  split
  · exact .note _ fun u hu => .pure _ _
  · rw [Document.insert_eq_withField]
    exact .note _ fun u hu => .pure _ _

end Join

end DocStore
