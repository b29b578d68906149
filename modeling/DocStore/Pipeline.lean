import DocStore.Lookup

/-!
# Pipelines

A pipeline is a list of stages, each fed by the one before it.

* `Pipeline.build` makes a pipeline from specifications, documents of one field that names a stage
  and holds its configuration. It stops at the first that is at fault.
* `Pipeline.stream` lays a pipeline over a lazy input; nothing is done until something is pulled.
* `Pipeline.execute` runs a pipeline on documents up to its end or its first failure.
-/

namespace DocStore

variable {σ : Type}

/-- Stages in the order in which documents pass them. -/
structure Pipeline (σ : Type) where
  stages : List (Stage σ)

namespace Pipeline

/-- The pipeline without stages. -/
def empty : Pipeline σ := ⟨[]⟩

/-- The pipeline with a stage after those it has. -/
def push (p : Pipeline σ) (stage : Stage σ) : Pipeline σ := ⟨p.stages ++ [stage]⟩

/-- One pipeline after another. -/
def append (p q : Pipeline σ) : Pipeline σ := ⟨p.stages ++ q.stages⟩

/-- The names of the stages, in order. -/
def names (p : Pipeline σ) : List String := p.stages.map (·.name)

/-! ## Construction -/

/-- The stage that a specification writes. -/
def buildStage [Journal σ] (resolver : Resolver σ) : Document → Action σ (Stage σ)
  | [(name, body)] =>
    if name = Lookup.stageName then
      match body with
      | .document configuration => return (← Lookup.build resolver configuration).stage
      | _ => throw (.specification (.bodyNotDocument name body.typeName))
    else throw (.specification (.unknownStage name))
  | _ => throw (.specification .fieldCount)

/-- The stages that specifications write, up to the first that is at fault. -/
def buildStages [Journal σ] (resolver : Resolver σ) : List Document → Action σ (List (Stage σ))
  | [] => return []
  | spec :: rest => do
    let stage ← buildStage resolver spec
    let stages ← buildStages resolver rest
    return stage :: stages

/-- The pipeline that specifications write. -/
def build [Journal σ] (resolver : Resolver σ) (specs : List Document) : Action σ (Pipeline σ) := do
  let p : Pipeline σ := ⟨← buildStages resolver specs⟩
  modify (Journal.note (.pipelineBuilt p.names))
  return p

/-! ## Running -/

/-- The stream of a pipeline over an input. -/
def stream (p : Pipeline σ) (input : List Item) : Stream σ := ⟨p.stages, input⟩

/-- The documents that a pipeline makes of documents, or its first failure. -/
def execute (p : Pipeline σ) (docs : List Document) : Action σ (List Document) :=
  (Source.through p.stages).drain (docs.map .ok)

/-- A pipeline in short, for diagnostics. -/
def summary (p : Pipeline σ) : String :=
  "Pipeline \x7b stages: " ++ Text.quotedList p.names ++ " \x7d"

end Pipeline

end DocStore
