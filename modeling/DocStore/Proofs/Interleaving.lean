import DocStore.Proofs.Pulls

/-!
# Streams among other work

Streams over a database are pulled from in any order, while documents are entered and other runs are
made. What a stream yields is told by its items and by what the database holds at each pull. Lookups
are given as `Join`s, with the incarnations that they stand in.

* `Watched` is a database with the queries that have been made of it; `Session` is one with open
  streams. `Session.step` is one `Operation`, `Session.run` several.
* `Reference` tells the same without lookups, stages and streams: it knows what the collections
  hold, the items that are pending, and the queries made.
* `yields` is what one stream yields. It looks at the documents that are entered and at the pulls
  from that stream, and at nothing else.
* `Session.run_refines` is the main statement.
-/

namespace DocStore

/-! ## Watched databases -/

/-- A database with the queries that have been made of it, in order. -/
structure Watched where
  database : Database
  queries : List Query

namespace Watched

instance : Journal Watched where
  note event w := { w with database := Journal.note event w.database }

/-- An incarnation as a target whose queries are watched. -/
def target (name : String) (h : Handle) : Target Watched where
  name := name
  query filter := do
    modify fun w => { w with queries := w.queries ++ [⟨h, filter⟩] }
    ((Database.target name h).query filter).within Watched.database
      fun w db => { w with database := db }

/-- A watched query is one of the database. -/
theorem query_on (name : String) (h : Handle) (filter : Document) (w : Watched) :
    ((target name h).query filter).on w =
      ((((Database.target name h).query filter).on w.database).1,
        ⟨(((Database.target name h).query filter).on w.database).2, w.queries ++ [⟨h, filter⟩]⟩) :=
  rfl

instance : Queried Watched where
  target := target
  contents w := contents w.database
  After w qs w' := ∃ events, w' = ⟨w.database.noted events, w.queries ++ qs⟩
  after_nil w := ⟨[], by simp [Database.noted]⟩
  after_note w event := ⟨[event], by simp [Journal.note, Database.noted]⟩
  after_append := by
    rintro w _ _ qs rs ⟨events, rfl⟩ ⟨more, rfl⟩
    exact ⟨events ++ more, by simp [Database.noted]⟩
  contents_of_after := by
    rintro w _ qs ⟨events, rfl⟩
    rfl
  query_target name h filter w := by
    obtain ⟨db, hdb, events, rfl⟩ := Queried.query_target name h filter w.database
    refine ⟨_, ?_, events, rfl⟩
    have hquery : ((Database.target name h).query filter).on w.database = _ := hdb
    rw [query_on, hquery]

end Watched

/-! ## Sessions -/

/-- What is done among streams. -/
inductive Operation where
  /-- Documents are entered into an incarnation. -/
  | insert (h : Handle) (docs : List Document)
  /-- A stream of lookups is opened on an input. -/
  | start (joins : List Join) (input : List Item)
  /-- One output is pulled from a stream. The streams are numbered as they were opened. -/
  | pull (i : Nat)
  /-- Lookups are run on documents. -/
  | execute (joins : List Join) (docs : List Document)

/-- What an operation answers. -/
inductive Answer where
  | done
  | output (out : Option Item)
  | result (result : Except Failure (List Document))

/-- A database with the streams that have been opened on it. -/
structure Session where
  store : Watched
  streams : List (Stream Watched)

namespace Session

/-- A session in which nothing has been done. -/
def initial (db : Database) : Session := ⟨⟨db, []⟩, []⟩

/-- One operation. -/
def step (s : Session) : Operation → Answer × Session
  | .insert h docs =>
    (.done, { s with store := { s.store with database := s.store.database.insert h docs } })
  | .start joins input =>
    (.done, { s with streams := s.streams ++ [Pipeline.stream ⟨Join.stages joins⟩ input] })
  | .pull i =>
    match s.streams[i]? with
    | none => (.done, s)
    | some stream =>
      let ((out, stream), store) := stream.next.run s.store
      (.output out, ⟨store, s.streams.set i stream⟩)
  | .execute joins docs =>
    let (result, store) := (Pipeline.execute ⟨Join.stages joins⟩ docs).on s.store
    (.result result, { s with store })

/-- Operations one after the other, with what they answer. -/
def run (s : Session) : List Operation → List Answer × Session
  | [] => ([], s)
  | op :: ops =>
    let (answer, s) := s.step op
    let (answers, s) := s.run ops
    (answer :: answers, s)

end Session

/-! ## The reference -/

/-- What the collections hold, the lookups and pending items of each stream, and the queries
made. -/
structure Reference where
  held : List (List Document)
  streams : List (List Join × List Item)
  queries : List Query

/-- The contents of a store in which the incarnations hold documents. -/
def contentsOf (held : List (List Document)) : Contents := fun h => held[h.index]?.getD []

namespace Reference

/-- The reference before anything has been done. -/
def initial (db : Database) : Reference := ⟨db.incarnations.map (·.documents), [], []⟩

/-- One operation. A pull gives the output of the first pending item that has one; it takes the
items up to and including that one and makes their queries. A run gives the outputs of its documents
or the first failure among them, and makes the queries of the documents up to and including that
one. -/
def step (r : Reference) : Operation → Answer × Reference
  | .insert h docs => (.done, { r with held := r.held.modify h.index (· ++ docs) })
  | .start joins input => (.done, { r with streams := r.streams ++ [(joins, input)] })
  | .pull i =>
    match r.streams[i]? with
    | none => (.done, r)
    | some (joins, pending) =>
      let store := contentsOf r.held
      let taken := Join.taken joins store pending
      (.output (pending.findSome? (Join.output joins store)),
        { r with
          streams := r.streams.set i (joins, pending.drop taken.length)
          queries := r.queries ++ taken.flatMap (Join.queries joins store) })
  | .execute joins docs =>
    let store := contentsOf r.held
    let executed := Join.executed joins store (docs.map .ok)
    (.result (((docs.map .ok).filterMap (Join.output joins store)).mapM id),
      { r with queries := r.queries ++ executed.flatMap (Join.queries joins store) })

/-- Operations one after the other, with what they answer. -/
def run (r : Reference) : List Operation → List Answer × Reference
  | [] => ([], r)
  | op :: ops =>
    let (answer, r) := r.step op
    let (answers, r) := r.run ops
    (answer :: answers, r)

end Reference

/-- A session is as a reference tells. -/
structure Session.Shows (s : Session) (r : Reference) : Prop where
  held : s.store.database.incarnations.map (·.documents) = r.held
  streams : s.streams = r.streams.map fun (joins, pending) => ⟨Join.stages joins, pending⟩
  queries : s.store.queries = r.queries

/-! ## One stream -/

/-- What the pulls from a stream answer among operations. -/
def pulled (i : Nat) : List Operation → List Answer → List (Option Item)
  | .pull k :: ops, .output out :: answers =>
    if k = i then out :: pulled i ops answers else pulled i ops answers
  | _ :: ops, _ :: answers => pulled i ops answers
  | _, _ => []

/-- What the pulls from a stream yield among operations. Each works on the pending items with what
the collections hold when it is made. -/
def yields (i : Nat) (joins : List Join) :
    List (List Document) → List Item → List Operation → List (Option Item)
  | _, _, [] => []
  | held, pending, .insert h docs :: ops =>
    yields i joins (held.modify h.index (· ++ docs)) pending ops
  | held, pending, .pull k :: ops =>
    if k = i then
      pending.findSome? (Join.output joins (contentsOf held)) ::
        yields i joins held
          (pending.drop (Join.taken joins (contentsOf held) pending).length) ops
    else yields i joins held pending ops
  | held, pending, .start _ _ :: ops => yields i joins held pending ops
  | held, pending, .execute _ _ :: ops => yields i joins held pending ops

/-- Whether an operation is one that a stream can tell: documents are entered, or the stream is
pulled from. -/
def Operation.touches (i : Nat) : Operation → Bool
  | .insert _ _ => true
  | .pull k => k = i
  | .start _ _ | .execute _ _ => false

namespace Session

theorem held_insert (db : Database) (h : Handle) (docs : List Document) :
    (db.insert h docs).incarnations.map (·.documents) =
      (db.incarnations.map (·.documents)).modify h.index (· ++ docs) := by
  apply List.ext_getElem?
  intro k
  rw [Database.insert, List.getElem?_map, List.getElem?_modify, List.getElem?_modify,
    List.getElem?_map]
  cases db.incarnations[k]? with
  | none => rfl
  | some c => by_cases hk : h.index = k <;> simp [hk, Collection.insert]

theorem contents_eq {s : Session} {r : Reference} (h : s.Shows r) :
    contents s.store = contentsOf r.held := by
  funext handle
  show (s.store.database.collection handle).documents = _
  rw [contentsOf, ← h.held, Database.collection, List.getElem?_map]
  cases s.store.database.incarnations[handle.index]? <;> rfl

/-- Queries leave what is told, but for the queries. -/
theorem Shows.after {s : Session} {r : Reference} (h : s.Shows r) {qs : List Query} {t : Watched}
    (hafter : After s.store qs t) :
    Shows ⟨t, s.streams⟩ { r with queries := r.queries ++ qs } := by
  obtain ⟨events, rfl⟩ := hafter
  refine ⟨h.held, h.streams, ?_⟩
  rw [← h.queries]

theorem Shows.set {s : Session} {r : Reference} (h : s.Shows r) (i : Nat) (joins : List Join)
    (pending : List Item) :
    Shows { s with streams := s.streams.set i ⟨Join.stages joins, pending⟩ }
      { r with streams := r.streams.set i (joins, pending) } :=
  ⟨h.held, by rw [h.streams, List.map_set], h.queries⟩

/-- One operation answers as the reference, and what it tells stays true. -/
theorem step_shows {s : Session} {r : Reference} (h : s.Shows r) (op : Operation) :
    (s.step op).1 = (r.step op).1 ∧ (s.step op).2.Shows (r.step op).2 := by
  cases op with
  | insert handle docs =>
    refine ⟨rfl, (held_insert s.store.database handle docs).trans ?_, h.streams, h.queries⟩
    rw [h.held]
    rfl
  | start joins input =>
    refine ⟨rfl, h.held, ?_, h.queries⟩
    simp [step, Reference.step, h.streams, Pipeline.stream]
  | pull i =>
    have hstream : s.streams[i]? = (r.streams[i]?).map fun (joins, pending) =>
        ⟨Join.stages joins, pending⟩ := by rw [h.streams, List.getElem?_map]
    cases hr : r.streams[i]? with
    | none =>
      rw [hr] at hstream
      simp only [step, Reference.step, hstream, hr, Option.map_none]
      exact ⟨trivial, h⟩
    | some stream =>
      obtain ⟨joins, pending⟩ := stream
      rw [hr] at hstream
      -- The pull is told by the contents of the store, which are those of the reference.
      obtain ⟨t, ht, hafter⟩ := Join.next_gives joins pending s.store
      rw [contents_eq h] at ht hafter
      simp only [step, Reference.step, hstream, hr, Option.map_some, ht]
      exact ⟨trivial, (h.after hafter).set i joins _⟩
  | execute joins docs =>
    obtain ⟨t, ht, hafter⟩ := Join.execute_comesTo joins docs s.store
    rw [contents_eq h] at ht hafter
    have hon : (Pipeline.execute ⟨Join.stages joins⟩ docs).on s.store = _ := ht
    simp only [step, hon]
    exact ⟨rfl, h.after hafter⟩

/-- A run answers as the reference, and what it tells stays true. -/
theorem run_shows {s : Session} {r : Reference} (h : s.Shows r) (ops : List Operation) :
    (s.run ops).1 = (r.run ops).1 ∧ (s.run ops).2.Shows (r.run ops).2 := by
  induction ops generalizing s r with
  | nil => exact ⟨rfl, h⟩
  | cons op ops ih =>
    obtain ⟨hanswer, hnext⟩ := step_shows h op
    obtain ⟨hanswers, hlast⟩ := ih hnext
    refine ⟨?_, hlast⟩
    show (s.step op).1 :: ((s.step op).2.run ops).1 = (r.step op).1 :: ((r.step op).2.run ops).1
    rw [hanswer, hanswers]

end Session

namespace Reference

/-- What the pulls from a stream answer is what the stream yields. -/
theorem pulled_run {r : Reference} {i : Nat} {joins : List Join} {pending : List Item}
    (h : r.streams[i]? = some (joins, pending)) (ops : List Operation) :
    pulled i ops (r.run ops).1 = yields i joins r.held pending ops := by
  induction ops generalizing r pending with
  | nil => rfl
  | cons op ops ih =>
    show pulled i (op :: ops) ((r.step op).1 :: ((r.step op).2.run ops).1) = _
    have hlt : i < r.streams.length := (List.getElem?_eq_some_iff.1 h).1
    cases op with
    | insert handle docs => exact ih h
    | execute others docs => exact ih h
    | start others input =>
      refine ih (?_ : (r.streams ++ [(others, input)])[i]? = some (joins, pending))
      rw [List.getElem?_append_left hlt, h]
    | pull k =>
      -- A pull from another stream leaves the items of this one pending.
      by_cases hk : k = i
      · subst hk
        rw [yields, if_pos rfl, step, h, pulled, if_pos rfl]
        refine congrArg _ (ih ?_)
        exact List.getElem?_set_self hlt
      · rw [yields, if_neg hk, step]
        cases hother : r.streams[k]? with
        | none => exact ih h
        | some other =>
          rw [pulled, if_neg hk]
          refine ih ?_
          exact (List.getElem?_set_ne hk).trans h

end Reference

/-- A stream cannot tell the operations that do not touch it. -/
theorem yields_filter (i : Nat) (joins : List Join) (held : List (List Document))
    (pending : List Item) (ops : List Operation) :
    yields i joins held pending (ops.filter (·.touches i)) = yields i joins held pending ops := by
  induction ops generalizing held pending with
  | nil => rfl
  | cons op ops ih =>
    cases op with
    | insert handle docs => exact ih _ _
    | start others input => exact ih _ _
    | execute others docs => exact ih _ _
    | pull k =>
      by_cases hk : k = i
      · rw [List.filter_cons_of_pos (by simp [Operation.touches, hk]), yields, yields, if_pos hk,
          if_pos hk, ih]
      · rw [List.filter_cons_of_neg (by simp [Operation.touches, hk]), yields, if_neg hk, ih]

namespace Session

theorem initial_shows (db : Database) : (initial db).Shows (Reference.initial db) := ⟨rfl, rfl, rfl⟩

/-- What the pulls from a new stream answer is what the stream yields. -/
theorem Shows.pulled_run {s : Session} {r : Reference} (h : s.Shows r) (joins : List Join)
    (input : List Item) (ops : List Operation) :
    pulled s.streams.length ops ((s.step (.start joins input)).2.run ops).1 =
      yields s.streams.length joins r.held input ops := by
  have hlast : (r.streams ++ [(joins, input)])[s.streams.length]? = some (joins, input) := by
    rw [h.streams, List.length_map, List.getElem?_concat_length]
  rw [(run_shows (step_shows h _).2 ops).1]
  exact Reference.pulled_run hlast ops

/-- **Streams work item by item, among whatever else is done.** Whatever is done in a session on a
database, in any order, each operation answers as the reference tells, and the queries made and the
items left pending are those of the reference. A stream yields what its own items say at the moments
of its pulls, and the same where everything but these pulls and what is entered is left out. -/
theorem run_refines (db : Database) :
    (∀ ops, ((initial db).run ops).1 = ((Reference.initial db).run ops).1 ∧
      ((initial db).run ops).2.Shows ((Reference.initial db).run ops).2) ∧
    ∀ before joins input after,
      let s := ((initial db).run before).2
      let i := s.streams.length
      let outputs := fun ops => pulled i ops ((s.step (.start joins input)).2.run ops).1
      outputs after =
          yields i joins (s.store.database.incarnations.map (·.documents)) input after ∧
        outputs (after.filter (·.touches i)) = outputs after := by
  refine ⟨run_shows (initial_shows db), fun before joins input after => ?_⟩
  have h := (run_shows (initial_shows db) before).2
  have hyields := h.pulled_run joins input
  refine ⟨?_, ?_⟩
  · rw [h.held]
    exact hyields after
  · exact (hyields _).trans ((yields_filter ..).trans (hyields after).symm)

end Session

end DocStore
