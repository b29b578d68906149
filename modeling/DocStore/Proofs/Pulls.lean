import DocStore.Proofs.Queries
import DocStore.Proofs.Streams

/-!
# What pulls and runs come to

Lookups behind one another over an input, told by the items of the input and the contents of the
store.

* `Join.chain` is what lookups in order come to for a document, `Join.output` and `Join.queries` for
  an item.
* `Join.next_comesTo` says what a pull gives: the output of the first item that has one, after the
  queries of the items up to that one.
* `Join.execute_comesTo` says what a run comes to: the outputs of all items, or the first failure
  among them after the queries of the items up to that one.
-/

namespace DocStore

/-- The elements of a list up to and including the first of which a condition holds. -/
def upTo {α : Type} (p : α → Bool) : List α → List α
  | [] => []
  | a :: rest => if p a then [a] else a :: upTo p rest

namespace Join

/-- What lookups in order come to for a document: the first that drops it or fails decides. -/
def chain : List Join → Contents → Document → Outcome (Option Document)
  | [], _, doc => return some doc
  | j :: rest, store, doc => do
    match ← j.row store doc with
    | none => return none
    | some out => chain rest store out

/-- The output of an item, if it has one: a failure passes unchanged, and a failure of a lookup is
the output of its document. -/
def output (joins : List Join) (store : Contents) : Item → Option Item
  | .error e => some (.error e)
  | .ok doc =>
    match (chain joins store doc).result with
    | .error e => some (.error e)
    | .ok out => out.map .ok

/-- The queries that an item causes, in order. -/
def queries (joins : List Join) (store : Contents) : Item → List Query
  | .error _ => []
  | .ok doc => (chain joins store doc).queries

/-- The items that a pull takes: up to and including the first with an output. -/
def taken (joins : List Join) (store : Contents) (pending : List Item) : List Item :=
  upTo (fun item => (output joins store item).isSome) pending

/-- The items that a run works on: up to and including the first whose output is a failure. -/
def executed (joins : List Join) (store : Contents) (input : List Item) : List Item :=
  upTo (fun item => match output joins store item with | some (.error _) => true | _ => false) input

variable {σ : Type} [Queried σ]

/-- Lookups as stages. -/
def stages (joins : List Join) : List (Stage σ) := joins.map fun j => j.lookup.stage

theorem chain_comesTo (joins : List Join) (doc : Document) (s : σ) :
    ComesTo (Stage.chain (stages joins) doc) s (chain joins (contents s) doc) := by
  induction joins generalizing doc s with
  | nil => exact .pure _ _
  | cons j rest ih =>
    refine (j.join_comesTo doc s).bind fun out t ht => ?_
    cases out with
    | none => exact .pure _ _
    | some out =>
      rw [← ht]
      exact ih out t

/-- What lookups make of an item, on a state. -/
theorem yield_gives (joins : List Join) (item : Item) (s : σ) :
    Gives (Source.yield (Stage.chain (stages joins)) item) s (output joins (contents s) item)
      (queries joins (contents s) item) := by
  cases item with
  | error e => exact .pure _ _
  | ok doc =>
    have hchain : Gives (Stage.chain (stages joins) doc).run s _ _ := chain_comesTo joins doc s
    rw [output, queries, ← List.append_nil (chain joins (contents s) doc).queries]
    refine hchain.bind fun t _ => ?_
    cases (chain joins (contents s) doc).result <;> exact .pure _ _

/-- What a source of lookups gives is settled by the contents of the state. -/
theorem perItem_gives (joins : List Join) (store : Contents) (pending : List Item) :
    ∃ pulled : Option (Pulled pending),
      (∀ s : σ, contents s = store →
        Gives (Source.perItem (Source.yield (Stage.chain (stages joins))) pending) s pulled
          ((taken joins store pending).flatMap (queries joins store))) ∧
      pulled.map (·.output) = pending.findSome? (output joins store) ∧
      (pulled.map (·.rest)).getD [] = pending.drop (taken joins store pending).length := by
  induction pending with
  | nil => exact ⟨none, fun s _ => .pure _ s, rfl, rfl⟩
  | cons item rest ih =>
    have hitem : ∀ s : σ, contents s = store →
        Gives (Source.yield (Stage.chain (stages joins)) item) s (output joins store item)
          (queries joins store item) := by
      rintro s rfl
      exact yield_gives joins item s
    cases hout : output joins store item with
    | some out =>
      have htaken : taken joins store (item :: rest) = [item] := by simp [taken, upTo, hout]
      rw [hout] at hitem
      refine ⟨some ⟨out, rest, Source.length_lt_cons item rest⟩, fun s hs => ?_, ?_, ?_⟩
      · rw [htaken]
        exact (hitem s hs).bind fun t _ => .pure _ t
      · rw [List.findSome?_cons, hout]
        rfl
      · rw [htaken]
        rfl
    | none =>
      have htaken : taken joins store (item :: rest) = item :: taken joins store rest := by
        simp [taken, upTo, hout]
      rw [hout] at hitem
      obtain ⟨pulled, hpulled, hput, hrest⟩ := ih
      refine ⟨pulled.map (Pulled.widen (Source.length_lt_cons item rest)), fun s hs => ?_, ?_, ?_⟩
      · rw [htaken, List.flatMap_cons, ← List.append_nil (List.flatMap _ _)]
        exact (hitem s hs).bind fun t ht => (hpulled t (ht.trans hs)).bind fun u _ => .pure _ u
      · rw [List.findSome?_cons, hout, ← hput]
        cases pulled <;> rfl
      · rw [htaken, List.length_cons, List.drop_succ_cons, ← hrest]
        cases pulled <;> rfl

/-- **A pull gives the output of the first item that has one.** It makes the queries of the items up
to and including that one, in order, and no others, and leaves the items after it pending. -/
theorem next_gives (joins : List Join) (pending : List Item) (s : σ) :
    Gives (Stream.next ⟨stages joins, pending⟩) s
      (pending.findSome? (output joins (contents s)),
        ⟨stages joins, pending.drop (taken joins (contents s) pending).length⟩)
      ((taken joins (contents s) pending).flatMap (queries joins (contents s))) := by
  obtain ⟨pulled, hpulled, hout, hrest⟩ := @perItem_gives σ _ joins (contents s) pending
  rw [Stream.next, Source.through_eq, ← hout, ← hrest, ← List.append_nil (List.flatMap _ _)]
  refine (hpulled s rfl).bind fun t _ => ?_
  cases pulled <;> exact .pure _ _

/-- **A run comes to the outputs of its documents, or to the first failure among them.** It makes
the queries of the documents up to and including one that fails, in order, and no others. -/
theorem execute_comesTo (joins : List Join) (docs : List Document) (s : σ) :
    ComesTo (Pipeline.execute ⟨stages joins⟩ docs) s
      ⟨(executed joins (contents s) (docs.map .ok)).flatMap (queries joins (contents s)),
        ((docs.map .ok).filterMap (output joins (contents s))).mapM id⟩ := by
  rw [Pipeline.execute, Source.through_eq]
  generalize docs.map Except.ok = input
  induction input generalizing s with
  | nil =>
    rw [Source.drain_perItem_nil]
    exact .pure _ _
  | cons item rest ih =>
    rw [Source.drain_perItem_cons]
    have hitem := yield_gives joins item s
    rcases hout : output joins (contents s) item with _ | e | doc <;> rw [hout] at hitem
    · have hdone : executed joins (contents s) (item :: rest) =
          item :: executed joins (contents s) rest := by simp [executed, upTo, hout]
      rw [hdone, List.flatMap_cons, List.filterMap_cons_none hout]
      refine ComesTo.after hitem fun t ht => ?_
      rw [← ht]
      exact ih t
    · have hdone : executed joins (contents s) (item :: rest) = [item] := by
        simp [executed, upTo, hout]
      rw [hdone, List.filterMap_cons_some hout, List.mapM_cons]
      refine ComesTo.after hitem fun t ht => .throw e t
    · have hdone : executed joins (contents s) (item :: rest) =
          item :: executed joins (contents s) rest := by simp [executed, upTo, hout]
      rw [hdone, List.flatMap_cons, List.filterMap_cons_some hout, List.mapM_cons]
      refine ComesTo.after hitem fun t ht => ?_
      rw [← ht]
      have hrest := (ih t).bind fun docs u _ => .pure (doc :: docs) u
      cases hall : (rest.filterMap (output joins (contents t))).mapM id with
      | error e =>
        rw [hall] at hrest
        exact hrest
      | ok docs =>
        rw [hall] at hrest
        rw [← List.append_nil (List.flatMap _ _)]
        exact hrest

end Join

end DocStore
