import DocStore.Proofs.Building

/-!
# Requests for collections

What building a lookup asks of a resolver, which may be any: its answers may depend on what it has
been asked before, and it may fail at any time.

* `Called σ` is a state with the record of the calls that a resolver has been given, and
  `Resolver.recorded` a resolver whose calls are recorded.
* `Lookup.build_recorded` is the main statement: a call for the source where it is a text, and no
  other; recording it makes no difference.
-/

namespace DocStore

variable {σ α β : Type}

/-! ## Records -/

/-- A call of a resolver. -/
structure Call where
  name : String
  create : Bool
  deriving DecidableEq

/-- A state with all calls of a resolver that there have been. -/
structure Called (σ : Type) where
  state : σ
  calls : List Call

instance [Journal σ] : Journal (Called σ) where
  note event w := { w with state := Journal.note event w.state }

/-- A target in a state with calls. -/
def Target.called (target : Target σ) : Target (Called σ) :=
  target.within Called.state fun w s => { w with state := s }

/-- A resolver whose calls are recorded. -/
def Resolver.recorded (resolver : Resolver σ) : Resolver (Called σ) := fun name create =>
  ExceptT.mk fun w =>
    let (result, s) := (resolver name create).on w.state
    (result.map Target.called, ⟨s, w.calls ++ [⟨name, create⟩]⟩)

theorem Resolver.recorded_on {resolver : Resolver σ} {name : String} {create : Bool} {s t : σ}
    {result : Except Failure (Target σ)} (h : (resolver name create).on s = (result, t))
    (calls : List Call) :
    (resolver.recorded name create).on ⟨s, calls⟩ =
      (result.map Target.called, ⟨t, calls ++ [⟨name, create⟩]⟩) := by
  have hrun : (resolver.recorded name create).on ⟨s, calls⟩ =
      (((resolver name create).on s).1.map Target.called,
        ⟨((resolver name create).on s).2, calls ++ [⟨name, create⟩]⟩) := rfl
  rw [hrun, h]

/-- An action whose calls are recorded does what the action does, with its results in a state with
calls, and adds its calls to the record. -/
def Action.Records (action : Action σ α) (put : α → β) (recorded : Action (Called σ) β) (s : σ)
    (calls : List Call) : Prop :=
  ∀ before, recorded.on ⟨s, before⟩ =
    ((action.on s).1.map put, ⟨(action.on s).2, before ++ calls⟩)

namespace Action.Records

variable {action : Action σ α} {put : α → β} {recorded : Action (Called σ) β} {s t : σ}
  {calls : List Call}

theorem on {result : Except Failure α} (h : action.Records put recorded s calls)
    (hrun : action.on s = (result, t)) (before : List Call) :
    recorded.on ⟨s, before⟩ = (result.map put, ⟨t, before ++ calls⟩) := by
  rw [h before, hrun]

/-- Actions one after the other that all succeed add their calls in order. -/
theorem mapM_on_ok {γ : Type} {act : γ → Action σ α} {recorded : γ → Action (Called σ) β}
    {calls : γ → List Call} (h : ∀ c s, (act c).Records put (recorded c) s (calls c)) {cs : List γ}
    {as : List α} (hrun : (cs.mapM act).on s = (.ok as, t)) (before : List Call) :
    (cs.mapM recorded).on ⟨s, before⟩ = (.ok (as.map put), ⟨t, before ++ cs.flatMap calls⟩) := by
  induction cs generalizing as s before with
  | nil =>
    cases hrun
    rw [List.flatMap_nil, List.append_nil]
    rfl
  | cons c rest ih =>
    rw [List.mapM_cons] at hrun
    obtain ⟨a, u, ha, hrun⟩ := on_bind_eq_ok hrun
    obtain ⟨more, v, hmore, hrun⟩ := on_bind_eq_ok hrun
    cases hrun
    rw [List.mapM_cons, on_bind_ok ((h c s).on ha before), on_bind_ok (ih hmore _),
      List.flatMap_cons, ← List.append_assoc]
    rfl

end Action.Records

/-! ## Building lookups -/

namespace Lookup

open Join

/-- A lookup in a state with calls. -/
def called (l : Lookup σ) : Lookup (Called σ) :=
  ⟨l.source, l.localField, l.foreignField, l.resultField, l.target.called⟩

/-- The calls that are made for a configuration. -/
def calls (configuration : Document) : List Call :=
  match configuration.get? "from" with
  | some (.string name) => [⟨name, false⟩]
  | _ => []

theorem calls_of_error {configuration : Document} {fault : SpecificationFault}
    (h : Options.text configuration stageName "from" = .error fault) :
    calls configuration = [] := by
  unfold Options.text at h
  unfold calls
  split
  · rename_i name hname
    rw [hname] at h
    cases h
  · rfl

theorem calls_of_ok {configuration : Document} {source : String}
    (h : Options.text configuration stageName "from" = .ok source) :
    calls configuration = [⟨source, false⟩] := by
  rw [calls, Options.text_eq_ok h]

/-- There is one call at the most, which does not ask for the collection to be created, and it is
made for the source that is a text. -/
theorem mem_calls_iff {configuration : Document} {call : Call} :
    call ∈ calls configuration ↔
      configuration.get? "from" = some (.string call.name) ∧ call.create = false := by
  obtain ⟨name, create⟩ := call
  unfold calls
  split
  · rename_i source hsource
    rw [hsource]
    simp [eq_comm]
  · rename_i hno
    simp only [List.not_mem_nil, false_iff, not_and]
    intro hname
    exact absurd hname (hno name)

theorem length_calls_le (configuration : Document) : (calls configuration).length ≤ 1 := by
  unfold calls
  split <;> simp

/-- **What building a lookup asks of a resolver.** One call for the source where it is a text, and
none otherwise; whether calls are recorded makes no difference to what building does. -/
theorem build_recorded [Journal σ] (resolver : Resolver σ) (configuration : Document) (s : σ) :
    (build resolver configuration).Records called (build resolver.recorded configuration) s
      (calls configuration) := by
  intro before
  cases htext : Options.text configuration stageName "from" with
  | error fault =>
    rw [build_on_faulty htext, build_on_faulty htext, calls_of_error htext, List.append_nil]
    rfl
  | ok source =>
    rw [calls_of_ok htext]
    rcases hres : (resolver source false).on s with ⟨result, t⟩
    have hrecorded := Resolver.recorded_on hres before
    cases result with
    | error e =>
      rw [build_on_unresolved htext hres, build_on_unresolved htext hrecorded]
      rfl
    | ok target =>
      rw [build_on_resolved htext hres, build_on_resolved htext hrecorded]
      cases Plan.complete configuration source <;> rfl

end Lookup

end DocStore
