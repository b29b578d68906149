import DocStore.Pipeline

/-!
# Streams, item by item

Stages over an input are laid one behind the other, and each pulls from the one before it. What they
do is told here by one item after the other.

* `Stage.chain` is what stages in order do to a document: the first that drops it or fails decides.
* `Source.perItem` pulls by working on one item after the other until there is an output.
* `Source.through_eq` is the main statement: stages laid over an input are a source of this kind,
  with the same effects on the state.
* `Source.drain_perItem_nil` and `Source.drain_perItem_cons` are the same of a run to the end;
  `Pipeline.execute_nil` and `Pipeline.execute_cons` say it of a pipeline and documents.
* `Stream.next_nil` and `Stream.next_cons` say it of a pull, `Stream.pulls_nil` and
  `Stream.pulls_cons` of several.
-/

namespace DocStore

variable {σ : Type}

/-- What stages do to a document, in order, up to the first that drops it or fails. -/
def Stage.chain : List (Stage σ) → Document → Action σ (Option Document)
  | [], doc => return some doc
  | stage :: rest, doc => do
    match ← stage.process doc with
    | none => return none
    | some out => Stage.chain rest out

namespace Source

/-- What an action on documents makes of an item: a failure passes unchanged, and a failure of the
action stands in the place of the document. -/
def yield (action : Document → Action σ (Option Document)) : Item → StateM σ (Option Item)
  | .error e => return some (.error e)
  | .ok doc => do
    match ← (action doc).run with
    | .error e => return some (.error e)
    | .ok out => return out.map .ok

theorem length_lt_cons (item : Item) (rest : List Item) : rest.length < (item :: rest).length :=
  Nat.lt_succ_self _

/-- The source that works on one item after the other until there is an output. -/
def perItem (work : Item → StateM σ (Option Item)) : Source σ
  | [] => return none
  | item :: rest => do
    match ← work item with
    | some out => return some ⟨out, rest, length_lt_cons item rest⟩
    | none => return (← perItem work rest).map (Pulled.widen (length_lt_cons item rest))

/-! ## Stages behind one another -/

/-- Work on items, with an action on the documents that it yields behind it. -/
def behind (action : Document → Action σ (Option Document)) (work : Item → StateM σ (Option Item))
    (item : Item) : StateM σ (Option Item) := do
  match ← work item with
  | none => return none
  | some out => yield action out

theorem input_eq_perItem : (input : Source σ) = perItem fun item => pure (some item) := by
  funext pending
  cases pending <;> rfl

theorem map_widen_widen {few some more : List Item} (h₁ : few.length < some.length)
    (h₂ : some.length < more.length) (p : Option (Pulled few)) :
    (p.map (Pulled.widen h₁)).map (Pulled.widen h₂) =
      p.map (Pulled.widen (Nat.lt_trans h₁ h₂)) := by
  cases p <;> rfl

/-- A stage over a source that works item by item is a source of the same kind. -/
theorem over_perItem (stage : Stage σ) (work : Item → StateM σ (Option Item)) :
    stage.over (perItem work) = perItem (behind stage.process work) := by
  funext pending
  induction pending with
  | nil =>
    rw [Stage.over]
    rfl
  | cons item rest ih =>
    rw [Stage.over, perItem, perItem, ← ih]
    simp only [behind, bind_assoc]
    refine bind_congr fun out => ?_
    obtain _ | e | doc := out
    · -- The item yields nothing, so both pull from the rest and see the output from there.
      rw [Stage.over]
      simp only [pure_bind, bind_assoc]
      refine bind_congr fun pulled => ?_
      obtain _ | ⟨e | doc, more, h⟩ := pulled
      · rfl
      · rfl
      · simp only [bind_pure_comp, map_bind, Option.map_some]
        refine bind_congr fun result => ?_
        obtain e | _ | out := result
        · rfl
        · show _ = Option.map _ <$> (Option.map _ <$> stage.over (perItem work) more)
          simp only [Functor.map_map, map_widen_widen]
        · rfl
    · simp [yield]
    · simp only [pure_bind, yield, bind_assoc]
      refine bind_congr fun result => ?_
      obtain e | _ | out := result
      · simp
      · simp
      · simp

@[simp] theorem behind_chain_nil (work : Item → StateM σ (Option Item)) :
    behind (Stage.chain []) work = work := by
  funext item
  refine Eq.trans (bind_congr fun out => ?_) (bind_pure (work item))
  obtain _ | e | doc := out
  · rfl
  · rfl
  · rfl

@[simp] theorem behind_chain_cons (stage : Stage σ) (rest : List (Stage σ))
    (work : Item → StateM σ (Option Item)) :
    behind (Stage.chain rest) (behind stage.process work) =
      behind (Stage.chain (stage :: rest)) work := by
  funext item
  rw [behind, behind, bind_assoc]
  refine bind_congr fun out => ?_
  obtain _ | e | doc := out
  · rfl
  · rfl
  · simp only [yield, Stage.chain, ExceptT.run_bind, bind_assoc]
    refine bind_congr fun result => ?_
    obtain e | _ | out := result
    · rfl
    · rfl
    · rfl

/-- **Stages over an input work item by item.** To pull from them is to work on one item after the
other with the chain of all stages, until there is an output. -/
theorem through_eq (stages : List (Stage σ)) :
    through stages = perItem (yield (Stage.chain stages)) := by
  suffices ∀ work : Item → StateM σ (Option Item),
      stages.foldl (fun source stage => stage.over source) (perItem work) =
        perItem (behind (Stage.chain stages) work) by
    rw [through, input_eq_perItem, this]
    rfl
  induction stages with
  | nil => exact fun work => by rw [List.foldl_nil, behind_chain_nil]
  | cons stage rest ih =>
    intro work
    rw [List.foldl_cons, over_perItem, ih, behind_chain_cons]

/-! ## Runs to the end -/

@[simp] theorem drain_perItem_nil (work : Item → StateM σ (Option Item)) :
    (perItem work).drain [] = (return []) := by
  rw [drain]
  rfl

@[simp] theorem drain_perItem_cons (work : Item → StateM σ (Option Item)) (item : Item)
    (rest : List Item) :
    (perItem work).drain (item :: rest) = do
      match ← work item with
      | none => (perItem work).drain rest
      | some (.error e) => throw e
      | some (.ok doc) => return doc :: (← (perItem work).drain rest) := by
  rw [drain, perItem]
  simp only [liftM_bind, bind_assoc]
  refine bind_congr fun out => ?_
  obtain _ | e | doc := out
  · rw [drain]
    simp only [liftM_map, bind_map_left, bind_pure_comp]
    refine bind_congr fun pulled => ?_
    obtain _ | ⟨e | doc, more, h⟩ := pulled
    · rfl
    · rfl
    · rfl
  · simp
  · simp

end Source

namespace Pipeline

@[simp] theorem execute_nil (p : Pipeline σ) : p.execute [] = (return []) := by
  rw [execute, Source.through_eq]
  exact Source.drain_perItem_nil _

/-- A run works on the first document, and then on the rest unless that one has failed. -/
@[simp] theorem execute_cons (p : Pipeline σ) (doc : Document) (docs : List Document) :
    p.execute (doc :: docs) = do
      match ← Stage.chain p.stages doc with
      | none => p.execute docs
      | some out => return out :: (← p.execute docs) := by
  rw [execute, execute, Source.through_eq, List.map_cons, Source.drain_perItem_cons, Source.yield]
  refine ExceptT.ext ?_
  simp only [ExceptT.run_bind, liftM_bind, bind_assoc, ExceptT.run_liftM, bind_map_left]
  refine bind_congr fun result => ?_
  obtain e | _ | out := result <;> rfl

end Pipeline

/-! ## Pulls -/

namespace Stream

@[simp] theorem next_nil (stages : List (Stage σ)) :
    next ⟨stages, []⟩ = (return (none, ⟨stages, []⟩)) := by
  rw [next, Source.through_eq]
  rfl

/-- A pull works on the first item, and on the items after it where that one has no output. -/
@[simp] theorem next_cons (stages : List (Stage σ)) (item : Item) (rest : List Item) :
    next ⟨stages, item :: rest⟩ = do
      match ← Source.yield (Stage.chain stages) item with
      | none => next ⟨stages, rest⟩
      | some out => return (some out, ⟨stages, rest⟩) := by
  rw [next, next, Source.through_eq, Source.perItem]
  simp only [bind_assoc]
  refine bind_congr fun out => ?_
  cases out with
  | some out => rfl
  | none =>
    simp only [bind_assoc, pure_bind]
    refine bind_congr fun pulled => ?_
    cases pulled <;> rfl

/-- Pull several times from a stream. -/
def pulls : Nat → Stream σ → StateM σ (List (Option Item) × Stream σ)
  | 0, stream => return ([], stream)
  | n + 1, stream => do
    let (out, stream) ← stream.next
    let (outs, stream) ← stream.pulls n
    return (out :: outs, stream)

@[simp] theorem pulls_nil (n : Nat) (stages : List (Stage σ)) :
    pulls n ⟨stages, []⟩ = (return (List.replicate n none, ⟨stages, []⟩)) := by
  induction n with
  | zero => rfl
  | succ n ih =>
    rw [pulls, next_nil, pure_bind]
    show pulls n _ >>= _ = _
    rw [ih]
    rfl

@[simp] theorem pulls_cons (n : Nat) (stages : List (Stage σ)) (item : Item) (rest : List Item) :
    pulls (n + 1) ⟨stages, item :: rest⟩ = do
      match ← Source.yield (Stage.chain stages) item with
      | none => pulls (n + 1) ⟨stages, rest⟩
      | some out =>
        let (outs, stream) ← pulls n ⟨stages, rest⟩
        return (some out :: outs, stream) := by
  rw [pulls, next_cons, bind_assoc]
  refine bind_congr fun out => ?_
  cases out <;> rfl

end Stream

end DocStore
