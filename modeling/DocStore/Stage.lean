import DocStore.Action

/-!
# Stages and streams

A stage works on one document at a time: it answers with a document, drops it, or fails. Over a lazy
input stages make a stream, which works only when something is pulled from it.

* `Item` is what flows through a stream: a document or a failure.
* `Source σ` is a way to pull from pending items: it takes items from the front until it has an
  output or nothing is pending.
* `Stage.over` puts a stage behind a source: failures pass through it, a failure of the stage stands
  in the place of its document, and after a dropped document it pulls again.
* `Source.drain` pulls until the end or the first failure.

That less is pending after every output is part of the type (`Pulled`), and is what both loops end
by.
-/

namespace DocStore

variable {σ : Type}

/-- A stage of a pipeline. -/
structure Stage (σ : Type) where
  name : String
  process : Document → Action σ (Option Document)

/-- What flows through a stream. -/
abbrev Item := Except Failure Document

/-- An output taken from pending items, and what is pending after it. -/
structure Pulled (pending : List Item) where
  output : Item
  rest : List Item
  shorter : rest.length < pending.length

/-- The same output, seen from longer pending items. -/
def Pulled.widen {pending more : List Item} (h : pending.length < more.length)
    (p : Pulled pending) : Pulled more :=
  ⟨p.output, p.rest, Nat.lt_trans p.shorter h⟩

/-- A way to pull from pending items; without an output nothing is left pending. -/
abbrev Source (σ : Type) := (pending : List Item) → StateM σ (Option (Pulled pending))

namespace Source

/-- The input itself: its items one by one. -/
def input : Source σ
  | [] => pure none
  | item :: rest => pure (some ⟨item, rest, Nat.lt_succ_self _⟩)

end Source

/-- A stage behind a source. -/
def Stage.over (stage : Stage σ) (source : Source σ) (pending : List Item) :
    StateM σ (Option (Pulled pending)) := do
  match ← source pending with
  | none => return none
  | some ⟨.error e, rest, h⟩ => return some ⟨.error e, rest, h⟩
  | some ⟨.ok doc, rest, h⟩ =>
    match ← (stage.process doc).run with
    | .error e => return some ⟨.error e, rest, h⟩
    | .ok (some out) => return some ⟨.ok out, rest, h⟩
    | .ok none => return (← stage.over source rest).map (Pulled.widen h)
termination_by pending.length

namespace Source

/-- The source behind which stages stand in order, the first nearest to the input. -/
def through (stages : List (Stage σ)) : Source σ :=
  stages.foldl (fun source stage => stage.over source) input

/-- Pull until nothing is pending or a failure comes out. -/
def drain (source : Source σ) (pending : List Item) : Action σ (List Document) := do
  match ← source pending with
  | none => return []
  | some ⟨.error e, _, _⟩ => throw e
  | some ⟨.ok doc, rest, _⟩ => return doc :: (← source.drain rest)
termination_by pending.length

end Source

/-- Stages over a lazy input of which some items are pending. -/
structure Stream (σ : Type) where
  stages : List (Stage σ)
  pending : List Item

/-- Pull one output from a stream. A stream that has ended has nothing pending. -/
def Stream.next (s : Stream σ) : StateM σ (Option Item × Stream σ) := do
  match ← Source.through s.stages s.pending with
  | none => return (none, { s with pending := [] })
  | some p => return (some p.output, { s with pending := p.rest })

end DocStore
