import DocStore.Proofs.Queries
import DocStore.Proofs.Streams

/-!
# Exchanges with collections of any kind

Nothing is known here of the collections that lookups ask, but that they answer: an answer may
depend on what has been asked before, change a state, and be a failure at any time. What lookups do
is told by the exchanges that they have with such collections.

* `Recorded σ` is a state of collections with the record of all exchanges; `Lookup.recorded` and
  `Lookup.recordedFrom` are lookups whose exchanges are recorded.
* An `Account` tells what work comes to: its exchanges, its result and the state that it leaves.
  `Target.askEach` is that of filters, `Lookup.pass` that of a document that passes lookups and
  `Lookup.passEach` that of several. `Lookup.turns` tells of the items of a stream.
* `Follows` and `Tells` say that a program does what is told of it, and has no other exchanges.
* `Surfaces` says that a failure is the answer to the last query, all before it being answered.
* `Lookup.failures_surface` is the main statement, on values, on runs and on streams.
-/

namespace DocStore

variable {σ α β : Type}

/-! ## Records -/

/-- A query that a lookup has made, and what it was answered with. The lookups of a pipeline are
numbered. -/
structure Exchange where
  lookup : Nat
  filter : Document
  answer : Except Failure (List Document)

/-- Whether the query did not fail. -/
def Exchange.Answered (x : Exchange) : Prop := ∃ found, x.answer = .ok found

/-- A state of collections, with all exchanges and notes there have been. -/
structure Recorded (σ : Type) where
  state : σ
  exchanges : List Exchange
  journal : List Event

instance : Journal (Recorded σ) where
  note event w := { w with journal := w.journal ++ [event] }

/-- A collection whose exchanges are recorded. -/
def Target.recorded (i : Nat) (target : Target σ) : Target (Recorded σ) where
  name := target.name
  query filter := ExceptT.mk fun w =>
    let (answer, s) := (target.query filter).on w.state
    let exchange := ⟨i, filter, answer.map Cursor.rest⟩
    (answer, { w with state := s, exchanges := w.exchanges ++ [exchange] })

namespace Lookup

/-- A lookup whose exchanges are recorded. -/
def recorded (i : Nat) (l : Lookup σ) : Lookup (Recorded σ) :=
  ⟨l.source, l.localField, l.foreignField, l.resultField, l.target.recorded i⟩

/-- Lookups as stages whose exchanges are recorded, numbered from `i`. -/
def recordedFrom (i : Nat) : List (Lookup σ) → List (Stage (Recorded σ))
  | [] => []
  | l :: rest => (l.recorded i).stage :: recordedFrom (i + 1) rest

end Lookup

/-! ## Accounts -/

/-- What work comes to: the exchanges that it has, its result and the state that it leaves. -/
structure Told (σ α : Type) where
  exchanges : List Exchange
  result : α
  state : σ

/-- What work that may fail comes to on a state. -/
def Account (σ α : Type) := σ → Told σ (Except Failure α)

namespace Account

/-- An account, and then the next unless the work failed. -/
def andThen (account : Account σ α) (next : α → Account σ β) : Account σ β := fun s =>
  let told := account s
  match told.result with
  | .ok a =>
    let more := next a told.state
    { more with exchanges := told.exchanges ++ more.exchanges }
  | .error e => { told with result := .error e }

instance : Monad (Account σ) where
  pure a := fun s => ⟨[], .ok a, s⟩
  bind := andThen

end Account

/-- One filter is asked. -/
def Target.ask (target : Target σ) (i : Nat) (filter : Document) : Account σ Cursor := fun s =>
  let (answer, t) := (target.query filter).on s
  ⟨[⟨i, filter, answer.map Cursor.rest⟩], answer, t⟩

/-- Filters are asked one after the other, and what is found is put together. -/
def Target.askEach (target : Target σ) (i : Nat) : List Document → Account σ (List Document)
  | [] => return []
  | filter :: rest => do
    let cursor ← target.ask i filter
    let more ← target.askEach i rest
    return cursor.rest ++ more

namespace Lookup

/-- The queries of a value, one for each leaf. -/
def filters (l : Lookup σ) (value : Value) : List Document := value.leaves.map l.equalityFilter

/-- What becomes of a document: it is given its matches, or dropped where there are none. -/
def row (l : Lookup σ) (i : Nat) (doc : Document) : Account σ (Option Document) := do
  let found ← l.target.askEach i (l.filters ((doc.gather? l.localField).getD .null))
  if found.isEmpty then return none
  else return some (doc.withField l.resultField (.array (found.map .document)))

/-- A document passes lookups, numbered from `i`: the first that drops it or fails decides. -/
def pass : List (Lookup σ) → Nat → Document → Account σ (Option Document)
  | [], _, doc => return some doc
  | l :: rest, i, doc => do
    match ← l.row i doc with
    | none => return none
    | some out => pass rest (i + 1) out

/-- Documents pass lookups one after the other, up to the first that fails. -/
def passEach (lookups : List (Lookup σ)) : List Document → Account σ (List Document)
  | [] => return []
  | doc :: rest => do
    match ← pass lookups 0 doc with
    | none => passEach lookups rest
    | some out => do
      let outs ← passEach lookups rest
      return out :: outs

/-- What becomes of an item: a failure passes unchanged, and a failure of a lookup is the output of
its document. -/
def turn (lookups : List (Lookup σ)) (s : σ) : Item → Told σ (Option Item)
  | .error e => ⟨[], some (.error e), s⟩
  | .ok doc =>
    let told := pass lookups 0 doc s
    { told with
      result := match told.result with
        | .error e => some (.error e)
        | .ok out => out.map .ok }

/-- What becomes of one item after the other, each on the state that the one before has left. -/
def turns (lookups : List (Lookup σ)) : σ → List Item → List (Told σ (Option Item))
  | _, [] => []
  | s, item :: rest => turn lookups s item :: turns lookups (turn lookups s item).state rest

end Lookup

/-! ## Programs as they are told -/

/-- A program does what is told: the exchanges are recorded, in order and no others, and the result
and the state are those told. -/
def Tells (told : Told σ α) (program : StateM (Recorded σ) α) (w : Recorded σ) : Prop :=
  ∃ journal, program.run w = (told.result, ⟨told.state, w.exchanges ++ told.exchanges, journal⟩)

/-- An action does what its account tells, on every state. -/
def Follows (action : Action (Recorded σ) α) (account : Account σ α) : Prop :=
  ∀ w, Tells (account w.state) action.run w

namespace Tells

theorem pure (a : α) (w : Recorded σ) : Tells ⟨[], a, w.state⟩ (Pure.pure a) w :=
  ⟨w.journal, by rw [List.append_nil]; rfl⟩

theorem bind {program : StateM (Recorded σ) α} {next : α → StateM (Recorded σ) β}
    {w : Recorded σ} {told : Told σ α} {more : Told σ β} (h : Tells told program w)
    (hn : ∀ v : Recorded σ, v.state = told.state → Tells more (next told.result) v) :
    Tells { more with exchanges := told.exchanges ++ more.exchanges } (program >>= next) w := by
  obtain ⟨journal, hrun⟩ := h
  obtain ⟨others, hnext⟩ := hn ⟨told.state, w.exchanges ++ told.exchanges, journal⟩ rfl
  refine ⟨others, ?_⟩
  rw [StateT.run_bind, hrun, ← List.append_assoc]
  exact hnext

/-- The same where nothing more is exchanged. -/
theorem bind_pure {program : StateM (Recorded σ) α} {next : α → StateM (Recorded σ) β}
    {w : Recorded σ} {told : Told σ α} {b : β} (h : Tells told program w)
    (hn : next told.result = Pure.pure b) :
    Tells { told with result := b } (program >>= next) w := by
  obtain ⟨journal, hrun⟩ := h
  refine ⟨journal, ?_⟩
  rw [StateT.run_bind, hrun]
  show (next told.result).run _ = _
  rw [hn]
  rfl

end Tells

namespace Follows

theorem pure (a : α) : Follows (Pure.pure a : Action (Recorded σ) α) (Pure.pure a) :=
  fun w => Tells.pure (Except.ok a) w

theorem bind {action : Action (Recorded σ) α} {next : α → Action (Recorded σ) β}
    {account : Account σ α} {more : α → Account σ β} (h : Follows action account)
    (hn : ∀ a, Follows (next a) (more a)) : Follows (action >>= next) (account >>= more) := by
  intro w
  have haction := h w
  show Tells (account.andThen more w.state) (action.run >>= ExceptT.bindCont next) w
  rw [Account.andThen]
  cases hresult : (account w.state).result with
  | error e =>
    refine haction.bind_pure ?_
    rw [hresult]
    rfl
  | ok a =>
    refine haction.bind fun v hv => ?_
    rw [hresult, ← hv]
    exact hn a v

theorem note {action : Action (Recorded σ) α} {account : Account σ α} (event : Event)
    (h : Follows action account) :
    Follows (do modify (Journal.note event); action) account := fun w => h (Journal.note event w)

end Follows

/-! ## Lookups -/

namespace Lookup

variable {i : Nat} {l : Lookup σ} {w : Recorded σ}

theorem query_follows (i : Nat) (target : Target σ) (filter : Document) :
    Follows ((target.recorded i).query filter) (target.ask i filter) := fun w => ⟨w.journal, rfl⟩

theorem matchingEach_follows (i : Nat) (l : Lookup σ) (leaves : List Value) :
    Follows ((l.recorded i).matchingEach leaves)
      (l.target.askEach i (leaves.map l.equalityFilter)) := by
  induction leaves with
  | nil => exact .pure _
  | cons leaf rest ih =>
    rw [matchingEach, matching, bind_assoc]
    exact (query_follows i l.target _).bind fun cursor => ih.bind fun more => .pure _

/-- A value is looked up leaf by leaf. -/
theorem fetch_follows (i : Nat) (l : Lookup σ) (value : Value) :
    Follows ((l.recorded i).fetch value) (l.target.askEach i (l.filters value)) := by
  rw [fetch_eq]
  exact matchingEach_follows i l value.leaves

theorem join_follows (i : Nat) (l : Lookup σ) (doc : Document) :
    Follows ((l.recorded i).join doc) (l.row i doc) := by
  refine (fetch_follows i l _).bind fun found => ?_
  split
  · exact .note _ (.pure _)
  · rw [Document.insert_eq_withField]
    exact .note _ (.pure _)

theorem pass_follows (lookups : List (Lookup σ)) (i : Nat) (doc : Document) :
    Follows (Stage.chain (recordedFrom i lookups) doc) (pass lookups i doc) := by
  induction lookups generalizing i doc with
  | nil => exact .pure _
  | cons l rest ih =>
    refine (join_follows i l doc).bind fun out => ?_
    cases out with
    | none => exact .pure _
    | some out => exact ih (i + 1) out

theorem yield_tells (lookups : List (Lookup σ)) (item : Item) (w : Recorded σ) :
    Tells (turn lookups w.state item)
      (Source.yield (Stage.chain (recordedFrom 0 lookups)) item) w := by
  cases item with
  | error e => exact .pure _ w
  | ok doc =>
    refine (pass_follows lookups 0 doc w).bind_pure ?_
    cases (pass lookups 0 doc w.state).result <;> rfl

end Lookup

/-! ## Runs and pulls -/

/-- Work that is done one after the other, from a state. -/
def Told.each (s : σ) (done : List (Told σ α)) (result : β) : Told σ β :=
  ⟨done.flatMap (·.exchanges), result, (done.getLast?.map (·.state)).getD s⟩

theorem Told.each_cons (s : σ) (first : Told σ α) (done : List (Told σ α)) (result : β) :
    each s (first :: done) result =
      { each first.state done result with
        exchanges := first.exchanges ++ (each first.state done result).exchanges } := by
  rw [each, each, List.flatMap_cons, List.getLast?_cons]
  cases done.getLast? <;> rfl

namespace Lookup

/-- Documents are run one after the other. -/
theorem passEach_follows (lookups : List (Lookup σ)) (docs : List Document) :
    Follows (Pipeline.execute ⟨recordedFrom 0 lookups⟩ docs) (passEach lookups docs) := by
  induction docs with
  | nil =>
    rw [Pipeline.execute_nil]
    exact .pure _
  | cons doc rest ih =>
    rw [Pipeline.execute_cons]
    refine (pass_follows lookups 0 doc).bind fun out => ?_
    cases out with
    | none => exact ih
    | some out => exact ih.bind fun outs => .pure _

/-- What is done by a number of pulls: up to and including the last output that they give. -/
def pulledTurns : Nat → List (Told σ (Option Item)) → List (Told σ (Option Item))
  | n + 1, told :: rest => told :: pulledTurns (if told.result.isSome then n else n + 1) rest
  | _, _ => []

/-- The outputs that a number of pulls give; from a stream that has ended there are none. -/
def outputs (n : Nat) (done : List (Told σ (Option Item))) : List (Option Item) :=
  let given := done.filterMap (·.result)
  given.map some ++ List.replicate (n - given.length) none

theorem outputs_cons (n : Nat) (exchanges : List Exchange) (out : Item) (s : σ)
    (done : List (Told σ (Option Item))) :
    outputs (n + 1) (⟨exchanges, some out, s⟩ :: done) = some out :: outputs n done := by
  simp [outputs]

theorem pulls_tells (lookups : List (Lookup σ)) (n : Nat) (pending : List Item) (w : Recorded σ) :
    let done := pulledTurns n (turns lookups w.state pending)
    Tells (.each w.state done
        (outputs n done, ⟨recordedFrom 0 lookups, pending.drop done.length⟩))
      (Stream.pulls n ⟨recordedFrom 0 lookups, pending⟩) w := by
  induction pending generalizing n w with
  | nil =>
    rw [Stream.pulls_nil]
    cases n <;> exact .pure _ w
  | cons item rest ih =>
    cases n with
    | zero => exact .pure _ w
    | succ n =>
      have hitem := yield_tells lookups item w
      rw [Stream.pulls_cons, turns, pulledTurns]
      dsimp only
      generalize turn lookups w.state item = told at hitem ⊢
      obtain ⟨exchanges, _ | out, s⟩ := told
      · rw [Told.each_cons]
        refine hitem.bind ?_
        rintro v rfl
        exact ih (n + 1) v
      · rw [Told.each_cons]
        refine hitem.bind ?_
        rintro v rfl
        refine (ih n v).bind_pure ?_
        rw [outputs_cons]
        rfl

end Lookup

/-! ## Where failures come from -/

/-- A failure is the answer to the last query, and all queries before it were answered; where there
is none, all were. -/
inductive Told.Surfaces : Told σ (Except Failure α) → Prop
  | answered {exchanges : List Exchange} {a : α} {s : σ} :
    (∀ x ∈ exchanges, x.Answered) → Surfaces ⟨exchanges, .ok a, s⟩
  | failed {before : List Exchange} {last : Exchange} {e : Failure} {s : σ} :
    (∀ x ∈ before, x.Answered) → last.answer = .error e → Surfaces ⟨before ++ [last], .error e, s⟩

/-- Failures surface on every state. -/
def Account.Surfaces (account : Account σ α) : Prop := ∀ s, (account s).Surfaces

namespace Account.Surfaces

theorem pure (a : α) : Surfaces (Pure.pure a : Account σ α) := fun _ => .answered nofun

theorem bind {account : Account σ α} {next : α → Account σ β} (h : account.Surfaces)
    (hn : ∀ a, (next a).Surfaces) : (account >>= next).Surfaces := by
  intro s
  have htold := h s
  show (account.andThen next s).Surfaces
  rw [andThen]
  generalize account s = told at htold ⊢
  cases htold with
  | failed hbefore hlast => exact .failed hbefore hlast
  | @answered exchanges a t hall =>
    have hmore := hn a t
    dsimp only
    generalize next a t = more at hmore ⊢
    cases hmore with
    | answered hmore =>
      exact .answered fun x hx => (List.mem_append.1 hx).elim (hall x) (hmore x)
    | failed hbefore hlast =>
      rw [← List.append_assoc]
      exact .failed (fun x hx => (List.mem_append.1 hx).elim (hall x) (hbefore x)) hlast

end Account.Surfaces

namespace Target

variable (target : Target σ) (i : Nat)

theorem ask_surfaces (filter : Document) : (target.ask i filter).Surfaces := by
  intro s
  rw [ask]
  rcases (target.query filter).on s with ⟨e | cursor, t⟩
  · exact @Told.Surfaces.failed _ _ [] _ _ _ nofun rfl
  · refine .answered fun x hx => ?_
    rw [List.mem_singleton.1 hx]
    exact ⟨_, rfl⟩

theorem askEach_surfaces (filters : List Document) : (target.askEach i filters).Surfaces := by
  induction filters with
  | nil => exact .pure _
  | cons filter rest ih =>
    exact (target.ask_surfaces i filter).bind fun _ => ih.bind fun _ => .pure _

end Target

namespace Lookup

theorem row_surfaces (l : Lookup σ) (i : Nat) (doc : Document) : (l.row i doc).Surfaces := by
  refine (l.target.askEach_surfaces i _).bind fun found => ?_
  split <;> exact .pure _

theorem pass_surfaces (lookups : List (Lookup σ)) (i : Nat) (doc : Document) :
    (pass lookups i doc).Surfaces := by
  induction lookups generalizing i doc with
  | nil => exact .pure _
  | cons l rest ih =>
    refine (l.row_surfaces i doc).bind fun out => ?_
    cases out with
    | none => exact .pure _
    | some out => exact ih (i + 1) out

theorem passEach_surfaces (lookups : List (Lookup σ)) (docs : List Document) :
    (passEach lookups docs).Surfaces := by
  induction docs with
  | nil => exact .pure _
  | cons doc rest ih =>
    refine (pass_surfaces lookups 0 doc).bind fun out => ?_
    cases out with
    | none => exact ih
    | some out => exact ih.bind fun outs => .pure _

end Lookup

/-! ## The queries of a value -/

theorem Account.bind_pure (account : Account σ α) (f : α → β) (s : σ) :
    (account >>= fun a => pure (f a)) s =
      { account s with result := (account s).result.map f } := by
  show account.andThen (fun a => pure (f a)) s = _
  rw [andThen]
  cases (account s).result with
  | error e => rfl
  | ok a => exact congrArg (Told.mk · _ _) (List.append_nil _)

namespace Target

variable {target : Target σ} {filter : Document} {s t : σ}

theorem askEach_cons_error {e : Failure} (h : (target.query filter).on s = (.error e, t)) (i : Nat)
    (rest : List Document) :
    target.askEach i (filter :: rest) s = ⟨[⟨i, filter, .error e⟩], .error e, t⟩ := by
  show Account.andThen (target.ask i filter) _ s = _
  rw [Account.andThen, ask, h]
  rfl

theorem askEach_cons_ok {cursor : Cursor} (h : (target.query filter).on s = (.ok cursor, t))
    (i : Nat) (rest : List Document) :
    target.askEach i (filter :: rest) s =
      let more := target.askEach i rest t
      ⟨⟨i, filter, .ok cursor.rest⟩ :: more.exchanges, more.result.map (cursor.rest ++ ·),
        more.state⟩ := by
  show Account.andThen (target.ask i filter) _ s = _
  rw [Account.andThen, ask, h]
  dsimp only
  rw [Account.bind_pure]
  rfl

/-- Filters are asked in order, and none after one that fails. -/
theorem filters_askEach (i : Nat) (filters : List Document) (s : σ) :
    (target.askEach i filters s).exchanges.map (·.filter) <+: filters ∧
      ∀ found, (target.askEach i filters s).result = .ok found →
        (target.askEach i filters s).exchanges.map (·.filter) = filters := by
  induction filters generalizing s with
  | nil => exact ⟨List.prefix_rfl, fun _ _ => rfl⟩
  | cons filter rest ih =>
    rcases h : (target.query filter).on s with ⟨e | cursor, t⟩
    · rw [askEach_cons_error h]
      exact ⟨⟨rest, rfl⟩, nofun⟩
    · rw [askEach_cons_ok h]
      obtain ⟨hmade, hall⟩ := ih t
      refine ⟨List.cons_prefix_cons.2 ⟨rfl, hmade⟩, fun found hfound => ?_⟩
      cases hrest : (target.askEach i rest t).result with
      | error e => simp [hrest, Except.map] at hfound
      | ok more => rw [List.map_cons, hall more hrest]

/-- What is found is what the queries were answered with, put together. -/
theorem result_askEach (i : Nat) (filters : List Document) (s : σ) :
    (target.askEach i filters s).result =
      ((target.askEach i filters s).exchanges.mapM Exchange.answer).map List.flatten := by
  induction filters generalizing s with
  | nil => rfl
  | cons filter rest ih =>
    rcases h : (target.query filter).on s with ⟨e | cursor, t⟩
    · rw [askEach_cons_error h]
      rfl
    · rw [askEach_cons_ok h]
      dsimp only
      rw [ih t, List.mapM_cons]
      cases (target.askEach i rest t).exchanges.mapM Exchange.answer <;> rfl

end Target

/-- **Failures of queries surface once and unchanged.** Whatever the collections are, a value is
looked up with one query for each leaf, in order; a run works on one document after the other, a
stream on one item after the other. A failure is that of the last query: none is made after it for
the value, the document or the run, and nothing of what was found before is given. In a stream the
failure is the output of its document, and what is pending after that is worked on as ever. -/
theorem Lookup.failures_surface :
    (∀ (l : Lookup σ) (i : Nat) (value : Value),
      Follows ((l.recorded i).fetch value) (l.target.askEach i (l.filters value)) ∧
      ∀ s, let told := l.target.askEach i (l.filters value) s
        told.exchanges.map (·.filter) <+: l.filters value ∧
          (∀ found, told.result = .ok found → told.exchanges.map (·.filter) = l.filters value) ∧
          told.result = (told.exchanges.mapM Exchange.answer).map List.flatten ∧ told.Surfaces) ∧
    ∀ lookups : List (Lookup σ),
      (∀ docs, Follows (Pipeline.execute ⟨recordedFrom 0 lookups⟩ docs) (passEach lookups docs) ∧
        (passEach lookups docs).Surfaces) ∧
      (∀ n pending (w : Recorded σ),
        let done := pulledTurns n (turns lookups w.state pending)
        Tells (.each w.state done
            (outputs n done, ⟨recordedFrom 0 lookups, pending.drop done.length⟩))
          (Stream.pulls n ⟨recordedFrom 0 lookups, pending⟩) w) ∧
      ∀ doc, (pass lookups 0 doc).Surfaces := by
  refine ⟨fun l i value => ⟨fetch_follows i l value, fun s => ?_⟩,
    fun lookups => ⟨fun docs => ?_, ?_, ?_⟩⟩
  · obtain ⟨hmade, hall⟩ := l.target.filters_askEach i (l.filters value) s
    exact ⟨hmade, hall, Target.result_askEach .., l.target.askEach_surfaces i _ s⟩
  · exact ⟨passEach_follows lookups docs, passEach_surfaces lookups docs⟩
  · exact pulls_tells lookups
  · exact pass_surfaces lookups 0

/-- A collection that answers one query and then fails: of three leaves the last is not asked. -/
example :
    let target : Target Nat := ⟨"orders", fun _ => ExceptT.mk fun asked =>
      (if asked = 0 then .ok (.ofList [[("by", .string "a")]]) else .error .json, asked + 1)⟩
    let l : Lookup Nat := ⟨"orders", "names", "by", "orders", target⟩
    let names : Value := .array [.string "a", .array [.string "b"], .string "c"]
    ((l.recorded 0).fetch names).on ⟨0, [], []⟩ =
      (.error .json, ⟨2, [⟨0, [("by", .string "a")], .ok [[("by", .string "a")]]⟩,
        ⟨0, [("by", .string "b")], .error .json⟩], []⟩) := rfl

end DocStore
