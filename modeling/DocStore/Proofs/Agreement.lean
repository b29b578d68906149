import Mathlib.Data.List.Forall2
import DocStore.Proofs.Reading

/-!
# Readings that agree

Two readings of filters may differ in their faults, and in the order of the clauses that they answer
with, and still say the same.

* `Filter.Same` says it of filters and `Filter.SameEach` of filters that are combined, where their
  order and number do not count; `Filter.Agree` and `Filter.AgreeEach` say it of readings.
* `Filter.readOperators_eq`, `Filter.readClauses_eq` and `Filter.readEntries_eq` say which readers
  read one by one, `Filter.readNegation_document`, `Filter.readPath_document` and
  `Filter.readEntry_document` what the others make of a document. `Filter.AgreeEach.mapM` is how
  readings one by one agree.
-/

namespace DocStore.Filter

/-! ## Reading one by one -/

section

variable {α β ε : Type} {read : α → Except ε β}

theorem mapM_eq_ok_iff {as : List α} {bs : List β} :
    as.mapM read = .ok bs ↔ List.Forall₂ (fun a b => read a = .ok b) as bs := by
  induction as generalizing bs with
  | nil =>
    rw [List.mapM_nil, List.forall₂_nil_left_iff]
    exact ⟨fun h => (Except.ok.inj h).symm, fun h => h ▸ rfl⟩
  | cons a rest ih =>
    rw [List.mapM_cons, List.forall₂_cons_left_iff]
    constructor
    · intro h
      cases ha : read a with
      | error e =>
        rw [ha] at h
        cases h
      | ok b =>
        cases hrest : rest.mapM read with
        | error e =>
          rw [ha, hrest] at h
          cases h
        | ok more =>
          rw [ha, hrest] at h
          cases h
          exact ⟨b, more, rfl, ih.1 hrest, rfl⟩
    · rintro ⟨b, more, hb, hmore, rfl⟩
      rw [hb, ih.2 hmore]
      rfl

/-- Several are read where each is. -/
theorem exists_mapM_eq_ok_iff {as : List α} :
    (∃ bs, as.mapM read = .ok bs) ↔ ∀ a ∈ as, ∃ b, read a = .ok b := by
  induction as with
  | nil => exact ⟨(fun _ _ h => nomatch h), fun _ => ⟨[], rfl⟩⟩
  | cons a rest ih =>
    rw [List.forall_mem_cons, ← ih]
    simp only [mapM_eq_ok_iff, List.forall₂_cons_left_iff]
    constructor
    · rintro ⟨_, b, more, hb, hmore, rfl⟩
      exact ⟨⟨b, hb⟩, more, hmore⟩
    · rintro ⟨⟨b, hb⟩, more, hmore⟩
      exact ⟨b :: more, b, more, hb, hmore, rfl⟩

/-- What several are refused for is what the first that is not read is refused for. -/
theorem mapM_eq_error_iff {as : List α} {e : ε} :
    as.mapM read = .error e ↔ ∃ before a after, as = before ++ a :: after ∧
      (∀ b ∈ before, ∃ c, read b = .ok c) ∧ read a = .error e := by
  induction as with
  | nil =>
    constructor
    · intro h
      cases h
    · rintro ⟨before, a, after, h, -⟩
      cases before <;> cases h
  | cons a rest ih =>
    rw [List.mapM_cons]
    constructor
    · intro h
      cases ha : read a with
      | error e' =>
        rw [ha] at h
        cases h
        exact ⟨[], a, rest, rfl, by simp, ha⟩
      | ok b =>
        cases hrest : rest.mapM read with
        | error e' =>
          rw [ha, hrest] at h
          cases h
          obtain ⟨before, a', after, rfl, hbefore, ha'⟩ := ih.1 hrest
          exact ⟨a :: before, a', after, rfl, List.forall_mem_cons.2 ⟨⟨b, ha⟩, hbefore⟩, ha'⟩
        | ok more =>
          rw [ha, hrest] at h
          cases h
    · rintro ⟨before, a', after, heq, hbefore, ha'⟩
      cases before with
      | nil =>
        cases heq
        rw [ha']
        rfl
      | cons b before =>
        cases heq
        obtain ⟨⟨c, hc⟩, hbefore⟩ := List.forall_mem_cons.1 hbefore
        rw [hc, ih.2 ⟨before, a', after, rfl, hbefore, ha'⟩]
        rfl

theorem exists_of_map_eq_ok {reading : Except ε α} {g : α → β} {b : β}
    (h : reading.map g = .ok b) : ∃ a, reading = .ok a ∧ g a = b := by
  cases reading with
  | error e => cases h
  | ok a => exact ⟨a, rfl, Except.ok.inj h⟩

theorem mem_of_mapM_eq_ok {as : List α} {bs : List β} (h : as.mapM read = .ok bs) {b : β} :
    b ∈ bs ↔ ∃ a ∈ as, read a = .ok b := by
  induction mapM_eq_ok_iff.1 h with
  | nil => simp
  | cons ha hrest ih =>
    rw [List.mem_cons, ih (mapM_eq_ok_iff.2 hrest), List.exists_mem_cons_iff, ha,
      Except.ok.injEq, eq_comm]

end

/-- One operator of a document of operators. -/
def readOperator (path : String) (field : String × Value) : Except QueryFault Filter :=
  if field.1 = "$not" then readNegation path field.2 else readTest path field.1 field.2

theorem readOperators_eq (path : String) (fields : Document) :
    readOperators path fields = fields.mapM (readOperator path) := by
  induction fields with
  | nil => rfl
  | cons field rest ih =>
    rw [readOperators, ih, List.mapM_cons, readOperator]
    split_ifs <;> rfl

/-- One field of a filter document. -/
def readClause (field : String × Value) : Except QueryFault Filter :=
  match combination? field.1 with
  | some combine => (readList field.1 field.2).map combine
  | none =>
    if isOperatorName field.1 then .error (.unknownTopLevel field.1) else readPath field.1 field.2

theorem readClauses_eq (fields : Document) : readClauses fields = fields.mapM readClause := by
  induction fields with
  | nil => rfl
  | cons field rest ih =>
    rw [readClauses, ih, List.mapM_cons, readClause]
    cases combination? field.1 with
    | none => split_ifs <;> rfl
    | some combine => cases readList field.1 field.2 <;> rfl

theorem readEntries_eq (operator : String) (limit : Nat) (items : List Value) :
    readEntries operator limit items = (items.take limit).mapM (readEntry operator) := by
  induction items generalizing limit with
  | nil => simp [readEntries]; rfl
  | cons item rest ih =>
    rw [readEntries]
    split_ifs with h
    · rw [h]
      rfl
    · obtain ⟨n, rfl⟩ := Nat.exists_eq_succ_of_ne_zero h
      rw [List.take_succ_cons, List.mapM_cons, ← ih]
      rfl

theorem readNegation_document {path : String} {fields : Document}
    (h : fields.startsWithOperator = true) : readNegation path (.document fields) =
      (fields.mapM (readOperator path)).map fun clauses => not (allOf clauses) := by
  rw [readNegation, if_pos h, readOperators_eq]
  rfl

theorem readPath_document {path : String} {fields : Document}
    (h : fields.startsWithOperator = true) : readPath path (.document fields) =
      (fields.mapM (readOperator path)).map allOf := by
  rw [readPath, if_pos h, readOperators_eq]

/-- An entry that is a document is read as a filter document of its own. -/
@[simp] theorem readEntry_document (operator : String) (fields : Document) :
    readEntry operator (.document fields) = ofDocument fields := by
  rw [readEntry, ofDocument]
  split_ifs <;> rfl

/-! ## Filters that say the same -/

/-- Two filters are fulfilled by the same documents. -/
def Same (f g : Filter) : Prop := ∀ doc, f.fulfilledBy doc = g.fulfilledBy doc

/-- Each filter of either list says the same as some filter of the other. -/
structure SameEach (fs gs : List Filter) : Prop where
  left : ∀ f ∈ fs, ∃ g ∈ gs, Same f g
  right : ∀ g ∈ gs, ∃ f ∈ fs, Same f g

namespace SameEach

variable {fs gs : List Filter}

theorem of_forall₂ (h : List.Forall₂ Same fs gs) : SameEach fs gs := by
  induction h with
  | nil => exact ⟨nofun, nofun⟩
  | cons hfg _ ih =>
    refine ⟨List.forall_mem_cons.2 ⟨⟨_, List.mem_cons_self, hfg⟩, fun f hf => ?_⟩,
      List.forall_mem_cons.2 ⟨⟨_, List.mem_cons_self, hfg⟩, fun g hg => ?_⟩⟩
    · obtain ⟨g, hg, hfg⟩ := ih.left f hf
      exact ⟨g, List.mem_cons_of_mem _ hg, hfg⟩
    · obtain ⟨f, hf, hfg⟩ := ih.right g hg
      exact ⟨f, List.mem_cons_of_mem _ hf, hfg⟩

theorem all_eq (h : SameEach fs gs) (doc : Document) :
    fs.all (·.fulfilledBy doc) = gs.all (·.fulfilledBy doc) := by
  rw [Bool.eq_iff_iff, List.all_eq_true, List.all_eq_true]
  constructor
  · intro hall g hg
    obtain ⟨f, hf, hfg⟩ := h.right g hg
    exact (hfg doc).symm.trans (hall f hf)
  · intro hall f hf
    obtain ⟨g, hg, hfg⟩ := h.left f hf
    exact (hfg doc).trans (hall g hg)

theorem any_eq (h : SameEach fs gs) (doc : Document) :
    fs.any (·.fulfilledBy doc) = gs.any (·.fulfilledBy doc) := by
  rw [Bool.eq_iff_iff, List.any_eq_true, List.any_eq_true]
  constructor
  · rintro ⟨f, hf, hfd⟩
    obtain ⟨g, hg, hfg⟩ := h.left f hf
    exact ⟨g, hg, (hfg doc).symm.trans hfd⟩
  · rintro ⟨g, hg, hgd⟩
    obtain ⟨f, hf, hfg⟩ := h.right g hg
    exact ⟨f, hf, (hfg doc).trans hgd⟩

theorem allOf (h : SameEach fs gs) : Same (allOf fs) (allOf gs) := fun doc => by
  simp [h.all_eq]

theorem not_allOf (h : SameEach fs gs) : Same (not (Filter.allOf fs)) (not (Filter.allOf gs)) :=
  fun doc => by rw [fulfilledBy, fulfilledBy, h.allOf]

theorem combination {key : String} {combine : List Filter → Filter}
    (hc : combination? key = some combine) (h : SameEach fs gs) :
    Same (combine fs) (combine gs) := fun doc => by
  rcases combination?_eq_some_iff.1 hc with ⟨-, rfl⟩ | ⟨-, rfl⟩ | ⟨-, rfl⟩
  · simp [fulfilledBy, h.all_eq]
  · simp [fulfilledBy, h.any_eq]
  · simp [fulfilledBy, h.any_eq]

end SameEach

/-! ## Readings that say the same -/

/-- Both readings fail, or both answer with filters that say the same. -/
structure Agree (reading reading' : Except QueryFault Filter) : Prop where
  accepts : (∃ f, reading = .ok f) ↔ ∃ g, reading' = .ok g
  same : ∀ f g, reading = .ok f → reading' = .ok g → Same f g

/-- The same of readings of several filters. -/
structure AgreeEach (reading reading' : Except QueryFault (List Filter)) : Prop where
  accepts : (∃ fs, reading = .ok fs) ↔ ∃ gs, reading' = .ok gs
  same : ∀ fs gs, reading = .ok fs → reading' = .ok gs → SameEach fs gs

theorem Agree.refl (reading : Except QueryFault Filter) : Agree reading reading where
  accepts := Iff.rfl
  same f g hf hg doc := by
    obtain rfl := Except.ok.inj (hf.symm.trans hg)
    rfl

namespace AgreeEach

theorem refl (reading : Except QueryFault (List Filter)) : AgreeEach reading reading where
  accepts := Iff.rfl
  same fs gs hfs hgs := by
    obtain rfl := Except.ok.inj (hfs.symm.trans hgs)
    exact ⟨fun f hf => ⟨f, hf, fun _ => rfl⟩, fun f hf => ⟨f, hf, fun _ => rfl⟩⟩

/-- Readings agree where each of the ones agrees with some of the others, and the other way
round. -/
theorem mapM {α β : Type} {as : List α} {bs : List β} {read : α → Except QueryFault Filter}
    {read' : β → Except QueryFault Filter} (h : ∀ a ∈ as, ∃ b ∈ bs, Agree (read a) (read' b))
    (h' : ∀ b ∈ bs, ∃ a ∈ as, Agree (read a) (read' b)) :
    AgreeEach (as.mapM read) (bs.mapM read') := by
  have haccepts : (∃ fs, as.mapM read = .ok fs) ↔ ∃ gs, bs.mapM read' = .ok gs := by
    rw [exists_mapM_eq_ok_iff, exists_mapM_eq_ok_iff]
    constructor
    · intro hall b hb
      obtain ⟨a, ha, hagree⟩ := h' b hb
      exact hagree.accepts.1 (hall a ha)
    · intro hall a ha
      obtain ⟨b, hb, hagree⟩ := h a ha
      exact hagree.accepts.2 (hall b hb)
  refine ⟨haccepts, fun fs gs hfs hgs => ⟨fun f hf => ?_, fun g hg => ?_⟩⟩
  · obtain ⟨a, ha, hread⟩ := (mem_of_mapM_eq_ok hfs).1 hf
    obtain ⟨b, hb, hagree⟩ := h a ha
    obtain ⟨g, hg⟩ := hagree.accepts.1 ⟨f, hread⟩
    exact ⟨g, (mem_of_mapM_eq_ok hgs).2 ⟨b, hb, hg⟩, hagree.same f g hread hg⟩
  · obtain ⟨b, hb, hread⟩ := (mem_of_mapM_eq_ok hgs).1 hg
    obtain ⟨a, ha, hagree⟩ := h' b hb
    obtain ⟨f, hf⟩ := hagree.accepts.2 ⟨g, hread⟩
    exact ⟨f, (mem_of_mapM_eq_ok hfs).2 ⟨a, ha, hf⟩, hagree.same f g hf hread⟩

/-- Readings that agree do so in what a combination makes of them. -/
theorem map {reading reading' : Except QueryFault (List Filter)} (h : AgreeEach reading reading')
    {combine : List Filter → Filter}
    (hc : ∀ fs gs, SameEach fs gs → Same (combine fs) (combine gs)) :
    Agree (reading.map combine) (reading'.map combine) := by
  obtain ⟨haccepts, hsame⟩ := h
  cases reading with
  | error fault =>
    cases reading' with
    | error fault' => exact ⟨⟨(fun ⟨_, h⟩ => nomatch h), fun ⟨_, h⟩ => nomatch h⟩, nofun⟩
    | ok gs =>
      obtain ⟨_, h⟩ := haccepts.2 ⟨gs, rfl⟩
      cases h
  | ok fs =>
    cases reading' with
    | error fault' =>
      obtain ⟨_, h⟩ := haccepts.1 ⟨fs, rfl⟩
      cases h
    | ok gs =>
      refine ⟨⟨fun _ => ⟨_, rfl⟩, fun _ => ⟨_, rfl⟩⟩, ?_⟩
      rintro _ _ ⟨⟩ ⟨⟩
      exact hc fs gs (hsame fs gs rfl rfl)

end AgreeEach

end DocStore.Filter
