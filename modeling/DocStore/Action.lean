import DocStore.Cursor
import DocStore.Failure

/-!
# Actions and collaborators

An action changes a state and may fail; what it changed before it failed stays changed. Stages know
the store only through two collaborators, over a state of which they assume nothing.

* `Action σ α` is an action on a state `σ`.
* `Target σ` is a collection that answers queries, `Resolver σ` finds the target of a name.
* `Action.ofStep` makes an action of a function that answers with the changed state only where it
  does not fail; `Action.within` and `Target.within` let an action and a target work on a part of a
  state.
-/

namespace DocStore

/-- A change of a state that may fail. -/
abbrev Action (σ α : Type) := ExceptT Failure (StateM σ) α

namespace Action

variable {σ α : Type}

/-- The action of a function that leaves the state as it is where it fails. -/
def ofStep (step : σ → Except Failure (α × σ)) : Action σ α :=
  ExceptT.mk fun s =>
    match step s with
    | .ok (a, s') => (.ok a, s')
    | .error e => (.error e, s)

/-- The result of an action on a state, and the state it leaves. -/
def on (action : Action σ α) (s : σ) : Except Failure α × σ := action.run s

/-- An action on a part of a state. -/
def within {τ : Type} (part : τ → σ) (put : τ → σ → τ) (action : Action σ α) : Action τ α :=
  ExceptT.mk fun t =>
    let (result, s) := action.on (part t)
    (result, put t s)

end Action

/-- A collection that answers queries made by filter documents. -/
structure Target (σ : Type) where
  name : String
  query : Document → Action σ Cursor

/-- A target in a part of a state. -/
def Target.within {σ τ : Type} (part : τ → σ) (put : τ → σ → τ) (target : Target σ) : Target τ :=
  ⟨target.name, fun filter => (target.query filter).within part put⟩

/-- What finds the collection of a name; the flag asks for it to be created where there is none. -/
abbrev Resolver (σ : Type) := String → Bool → Action σ (Target σ)

end DocStore
