import DocStore.Proofs.Ordering
import DocStore.Proofs.Semantics

/-!
# Respelled documents and filters

The evaluator cannot tell equal values apart. One number may be written in several kinds, at any
depth of a document or of an operand, and the same documents fulfil the filter.

* `Value.Alike` says that two values are equal and name no field twice, so that equality can be
  turned round.
* `Value.Reaches.alike` is about the traversal: what a path leads to in a value has its like in
  every value that is alike.
* `Value.Respells` and `Filter.Respells` say that a value, or a filter by its operands, is written
  anew. An operand may also stay as it is, which matters for one that is not equal to itself.
* `Document.EqualTo.alike` and `Document.InRange.alike` exchange the document in a test,
  `Document.EqualTo.respells` and `Document.InRange.respells` its operand.
* `Filter.fulfilledBy_respelled` is the main statement.
-/

namespace DocStore

/-! ## Values that are alike -/

/-- Two values in which no document names a field twice are equal. -/
structure Value.Alike (v w : Value) : Prop where
  left : v.uniqueKeys = true
  right : w.uniqueKeys = true
  equal : v.equal w = true

namespace Value.Alike

variable {v w : Value}

theorem symm (h : v.Alike w) : w.Alike v := ⟨h.right, h.left, equal_symm h.left h.right h.equal⟩

theorem array {xs : List Value} (h : (Value.array xs).Alike w) :
    ∃ ys, w = .array ys ∧ List.Forall₂ Alike xs ys := by
  obtain ⟨ys, rfl, hxs⟩ := equal_array_iff.1 h.equal
  have hl := uniqueKeysItems_iff.1 h.left
  have hr := uniqueKeysItems_iff.1 h.right
  exact ⟨ys, rfl, forall₂_of_mem hxs fun x hx y hy hxy => ⟨hl x hx, hr y hy, hxy⟩⟩

theorem document {xs : Document} (h : (Value.document xs).Alike w) :
    ∃ ys : Document, w = .document ys ∧
      List.Forall₂ (fun f g => f.1 = g.1 ∧ f.2.Alike g.2) xs ys := by
  obtain ⟨ys, rfl, hxs⟩ := equal_document_iff.1 h.equal
  have hl := (uniqueKeysFields_iff.1 h.left).2
  have hr := (uniqueKeysFields_iff.1 h.right).2
  exact ⟨ys, rfl, forall₂_of_mem hxs fun f hf g hg hfg =>
    ⟨hfg.1, hl f hf, hr g hg, hfg.2⟩⟩

end Value.Alike

theorem Document.get?_alike {xs ys : Document}
    (h : List.Forall₂ (fun f g => f.1 = g.1 ∧ f.2.Alike g.2) xs ys) {key : String} {v : Value}
    (hv : xs.get? key = some v) : ∃ w, ys.get? key = some w ∧ v.Alike w := by
  induction h with
  | nil => cases hv
  | @cons f g xs ys hfg _ ih =>
    obtain ⟨k, x⟩ := f
    obtain ⟨l, y⟩ := g
    obtain ⟨rfl, hxy⟩ := hfg
    simp only [Document.get?] at hv ⊢
    split_ifs at hv ⊢ with hk
    · exact ⟨y, rfl, Option.some.inj hv ▸ hxy⟩
    · exact ih hv

theorem Value.mem_alike {xs ys : List Value} (h : List.Forall₂ Alike xs ys) {v : Value}
    (hv : v ∈ xs) : ∃ w ∈ ys, v.Alike w := by
  obtain ⟨i, hi, rfl⟩ := List.mem_iff_getElem.1 hv
  obtain ⟨hlen, hget⟩ := List.forall₂_iff_get.1 h
  exact ⟨ys[i], List.getElem_mem _, hget i hi (hlen ▸ hi)⟩

theorem Value.getElem?_alike {xs ys : List Value} (h : List.Forall₂ Alike xs ys) {i : ℕ} {v : Value}
    (hv : xs[i]? = some v) : ∃ w, ys[i]? = some w ∧ v.Alike w := by
  obtain ⟨hi, rfl⟩ := List.getElem?_eq_some_iff.1 hv
  obtain ⟨hlen, hget⟩ := List.forall₂_iff_get.1 h
  exact ⟨ys[i], List.getElem?_eq_getElem (hlen ▸ hi), hget i hi (hlen ▸ hi)⟩

/-! ## Values at a path -/

theorem Value.Reaches.alike {v u : Value} {segments : List String} (h : v.Reaches segments u) :
    ∀ {w : Value}, v.Alike w → ∃ t, w.Reaches segments t ∧ u.Alike t := by
  induction h with
  | here v =>
    intro w hw
    exact ⟨w, .here w, hw⟩
  | field hget _ ih =>
    intro w hw
    obtain ⟨ys, rfl, hys⟩ := hw.document
    obtain ⟨y, hy, hlike⟩ := Document.get?_alike hys hget
    obtain ⟨t, ht, hut⟩ := ih hlike
    exact ⟨t, .field hy ht, hut⟩
  | element hindex hget _ ih =>
    intro w hw
    obtain ⟨ys, rfl, hys⟩ := hw.array
    obtain ⟨y, hy, hlike⟩ := getElem?_alike hys hget
    obtain ⟨t, ht, hut⟩ := ih hlike
    exact ⟨t, .element hindex hy ht, hut⟩
  | member hmem _ ih =>
    intro w hw
    obtain ⟨ys, rfl, hys⟩ := hw.array
    obtain ⟨y, hy, hlike⟩ := mem_alike hys hmem
    obtain ⟨fields, rfl, -⟩ := hlike.document
    obtain ⟨t, ht, hut⟩ := ih hlike
    exact ⟨t, .member hy ht, hut⟩

namespace Document

variable {d e : Document} {path : String}

theorem Leads.alike {u : Value} (h : d.Leads path u)
    (hde : (Value.document d).Alike (.document e)) :
    ∃ t, e.Leads path t ∧ u.Alike t := by
  obtain ⟨t, ht, hut⟩ := h.reaches.alike hde
  exact ⟨t, ⟨h.nonempty, h.bytes, h.segments, ht⟩, hut⟩

theorem exists_leads_iff (hde : (Value.document d).Alike (.document e)) :
    (∃ u, d.Leads path u) ↔ ∃ u, e.Leads path u := by
  constructor
  · rintro ⟨u, hu⟩
    obtain ⟨t, ht, -⟩ := hu.alike hde
    exact ⟨t, ht⟩
  · rintro ⟨u, hu⟩
    obtain ⟨t, ht, -⟩ := hu.alike hde.symm
    exact ⟨t, ht⟩

theorem Offers.alike {u : Value} (h : d.Offers path u)
    (hde : (Value.document d).Alike (.document e)) : ∃ t, e.Offers path t ∧ u.Alike t := by
  rcases h with ⟨hu, hno⟩ | ⟨items, hitems, hmem⟩
  · obtain ⟨t, ht, hut⟩ := hu.alike hde
    refine ⟨t, .inl ⟨ht, ?_⟩, hut⟩
    -- Were the like an array, the value that it is like would be one.
    rintro items rfl
    obtain ⟨xs, rfl, -⟩ := hut.symm.array
    exact hno xs rfl
  · obtain ⟨t, ht, hlike⟩ := hitems.alike hde
    obtain ⟨ys, rfl, hys⟩ := hlike.array
    obtain ⟨y, hy, huy⟩ := Value.mem_alike hys hmem
    exact ⟨y, .inr ⟨ys, ht, hy⟩, huy⟩

end Document

/-! ## Operands -/

/-- A value is written anew: as it is, or as one that is alike. -/
def Value.Respells (v w : Value) : Prop := v = w ∨ v.Alike w

namespace Value.Respells

variable {u v w : Value}

theorem symm (h : v.Respells w) : w.Respells v := h.imp Eq.symm Alike.symm

theorem null (h : v.Respells w) (hv : v = .null) : w = .null := by
  subst hv
  rcases h with rfl | h
  · rfl
  · exact (Stands.nothing.of_equal h.equal).eq_null

theorem equal (h : v.Respells w) (huv : u.equal v = true) : u.equal w = true := by
  rcases h with rfl | h
  · exact huv
  · exact equal_trans huv h.equal

theorem stands {p : Standing} (h : v.Respells w) (hv : v.Stands p) : w.Stands p := by
  rcases h with rfl | h
  · exact hv
  · exact hv.of_equal h.equal

theorem compare? {o : Ordering} (h : v.Respells w) (huv : u.compare? v = some o) :
    u.compare? w = some o := by
  obtain ⟨p, q, hp, hq, hpq⟩ := compare?_eq_some_iff.1 huv
  exact compare?_eq_some_iff.2 ⟨p, q, hp, h.stands hq, hpq⟩

end Value.Respells

namespace Document

variable {d e : Document} {path : String} {v w : Value}

theorem EqualTo.alike (h : d.EqualTo path v) (hde : (Value.document d).Alike (.document e)) :
    e.EqualTo path v := by
  rcases h with ⟨hno, hv⟩ | ⟨u, hu, hv⟩
  · refine .inl ⟨fun t ht => ?_, hv⟩
    obtain ⟨u, hu⟩ := (exists_leads_iff hde).2 ⟨t, ht⟩
    exact hno u hu
  · obtain ⟨t, ht, hut⟩ := hu.alike hde
    refine .inr ⟨t, ht, ?_⟩
    rcases hv with hv | ⟨items, rfl, x, hx, hv⟩
    · exact .inl (Value.equal_trans hut.symm.equal hv)
    · obtain ⟨ys, rfl, hys⟩ := hut.array
      obtain ⟨y, hy, hxy⟩ := Value.mem_alike hys hx
      exact .inr ⟨ys, rfl, y, hy, Value.equal_trans hxy.symm.equal hv⟩

theorem EqualTo.respells (h : d.EqualTo path v) (hvw : v.Respells w) : d.EqualTo path w := by
  rcases h with ⟨hno, hv⟩ | ⟨u, hu, hv⟩
  · exact .inl ⟨hno, hvw.null hv⟩
  · refine .inr ⟨u, hu, ?_⟩
    rcases hv with hv | ⟨items, rfl, x, hx, hv⟩
    · exact .inl (hvw.equal hv)
    · exact .inr ⟨items, rfl, x, hx, hvw.equal hv⟩

theorem InRange.alike {op : Comparison} (h : d.InRange path op v)
    (hde : (Value.document d).Alike (.document e)) : e.InRange path op v := by
  obtain ⟨u, hu, order, horder, hop⟩ := h
  obtain ⟨t, ht, hut⟩ := hu.alike hde
  obtain ⟨p, q, hp, hq, hpq⟩ := Value.compare?_eq_some_iff.1 horder
  exact ⟨t, ht, order, Value.compare?_eq_some_iff.2 ⟨p, q, hp.of_equal hut.equal, hq, hpq⟩, hop⟩

theorem InRange.respells {op : Comparison} (h : d.InRange path op v) (hvw : v.Respells w) :
    d.InRange path op w := by
  obtain ⟨u, hu, order, horder, hop⟩ := h
  exact ⟨u, hu, order, hvw.compare? horder, hop⟩

theorem equalTo_iff (hde : (Value.document d).Alike (.document e)) (hvw : v.Respells w) :
    d.EqualTo path v ↔ e.EqualTo path w :=
  ⟨fun h => (h.alike hde).respells hvw, fun h => (h.alike hde.symm).respells hvw.symm⟩

theorem inRange_iff {op : Comparison} (hde : (Value.document d).Alike (.document e))
    (hvw : v.Respells w) : d.InRange path op v ↔ e.InRange path op w :=
  ⟨fun h => (h.alike hde).respells hvw, fun h => (h.alike hde.symm).respells hvw.symm⟩

theorem equalToOne_iff {vs ws : List Value}
    (h : List.Forall₂ (fun v w => d.EqualTo path v ↔ e.EqualTo path w) vs ws) :
    (∃ v ∈ vs, d.EqualTo path v) ↔ ∃ w ∈ ws, e.EqualTo path w := by
  induction h with
  | nil => simp only [List.not_mem_nil, false_and, exists_false]
  | cons hvw _ ih =>
    simp only [List.exists_mem_cons_iff]
    exact or_congr hvw ih

end Document

/-! ## Filters -/

namespace Filter

mutual

/-- A filter of the same shape, with the same paths, whose operands are written anew. -/
inductive Respells : Filter → Filter → Prop
  | always : Respells always always
  | and {fs gs : List Filter} : RespellsEach fs gs → Respells (and fs) (and gs)
  | or {fs gs : List Filter} : RespellsEach fs gs → Respells (or fs) (or gs)
  | nor {fs gs : List Filter} : RespellsEach fs gs → Respells (nor fs) (nor gs)
  | not {f g : Filter} : Respells f g → Respells (not f) (not g)
  | presence (path : String) (expected : Bool) :
    Respells (presence path expected) (presence path expected)
  | oneOf (path : String) {vs ws : List Value} :
    List.Forall₂ Value.Respells vs ws → Respells (oneOf path vs) (oneOf path ws)
  | noneOf (path : String) {vs ws : List Value} :
    List.Forall₂ Value.Respells vs ws → Respells (noneOf path vs) (noneOf path ws)
  | compare (path : String) (op : Comparison) {v w : Value} :
    v.Respells w → Respells (compare path op v) (compare path op w)

/-- Filters that are written anew one by one. -/
inductive RespellsEach : List Filter → List Filter → Prop
  | nil : RespellsEach [] []
  | cons {f g : Filter} {fs gs : List Filter} :
    Respells f g → RespellsEach fs gs → RespellsEach (f :: fs) (g :: gs)

end

variable {d e : Document}

theorem holds_compare_iff {path : String} {op : Comparison} {v w : Value}
    (hequal : d.EqualTo path v ↔ e.EqualTo path w)
    (hrange : d.InRange path op v ↔ e.InRange path op w) :
    Holds d (compare path op v) ↔ Holds e (compare path op w) := by
  cases op <;> simp only [Holds]
  case eq => exact hequal
  case ne => exact not_congr hequal
  all_goals exact hrange

mutual

theorem Respells.holds_iff (hde : (Value.document d).Alike (.document e)) :
    ∀ {f g : Filter}, f.Respells g → (Holds d f ↔ Holds e g)
  | _, _, .always => by simp only [Holds]
  | _, _, .and h => by
    rw [Holds, Holds]
    exact h.every_iff hde
  | _, _, .or h => by
    rw [Holds, Holds]
    exact h.some_iff hde
  | _, _, .nor h => by
    rw [Holds, Holds]
    exact not_congr (h.some_iff hde)
  | _, _, .not h => by
    rw [Holds, Holds]
    exact not_congr (h.holds_iff hde)
  | _, _, .presence path expected => by
    rw [Holds, Holds, Document.exists_leads_iff hde]
  | _, _, .oneOf path h => by
    rw [Holds, Holds]
    exact Document.equalToOne_iff
      ((List.forall₂_take 1000 h).imp fun _ _ hvw => Document.equalTo_iff hde hvw)
  | _, _, .noneOf path h => by
    rw [Holds, Holds]
    exact not_congr (Document.equalToOne_iff
      ((List.forall₂_take 1000 h).imp fun _ _ hvw => Document.equalTo_iff hde hvw))
  | _, _, .compare _ _ h =>
    holds_compare_iff (Document.equalTo_iff hde h) (Document.inRange_iff hde h)

theorem RespellsEach.every_iff (hde : (Value.document d).Alike (.document e)) :
    ∀ {fs gs : List Filter}, RespellsEach fs gs → (HoldsEvery d fs ↔ HoldsEvery e gs)
  | _, _, .nil => by simp only [HoldsEvery]
  | _, _, .cons h hs => by
    rw [HoldsEvery, HoldsEvery]
    exact and_congr (h.holds_iff hde) (hs.every_iff hde)

theorem RespellsEach.some_iff (hde : (Value.document d).Alike (.document e)) :
    ∀ {fs gs : List Filter}, RespellsEach fs gs → (HoldsSome d fs ↔ HoldsSome e gs)
  | _, _, .nil => by simp only [HoldsSome]
  | _, _, .cons h hs => by
    rw [HoldsSome, HoldsSome]
    exact or_congr (h.holds_iff hde) (hs.some_iff hde)

end

/-- **Equal values cannot be told apart.** A filter and the same filter with operands that are
written anew have one answer on two documents that are equal; no document in them, nor in an operand
that is exchanged, names a field twice. -/
theorem fulfilledBy_respelled (d e : Document) (f g : Filter)
    (hd : (Value.document d).uniqueKeys = true) (he : (Value.document e).uniqueKeys = true)
    (hde : (Value.document d).equal (.document e) = true) (hfg : f.Respells g) :
    f.fulfilledBy d = g.fulfilledBy e := by
  rw [Bool.eq_iff_iff, fulfilledBy_iff, fulfilledBy_iff]
  exact hfg.holds_iff ⟨hd, he, hde⟩

/-- One number in four kinds, in an array of a document and in the operands; a scope with a NaN is
an operand that stays as it is. -/
theorem fulfilledBy_respelled_one :
    (and [compare "a.0" .gte (.int 1), not (oneOf "a" [.array [.long 1],
        .javaScriptWithScope "f" [("x", .double Double.nan)]])]).fulfilledBy
        [("a", .array [.int 1])] =
      (and [compare "a.0" .gte (.long 1), not (oneOf "a" [.array [.double ⟨0x3ff0000000000000⟩],
        .javaScriptWithScope "f" [("x", .double Double.nan)]])]).fulfilledBy
        [("a", .array [.decimal (.finite false 10 (-1))])] :=
  fulfilledBy_respelled _ _ _ _ (by decide) (by decide) (by decide +kernel)
    (.and (.cons (.compare _ _ (.inr ⟨rfl, rfl, by decide +kernel⟩))
      (.cons (.not (.oneOf _ (.cons (.inr ⟨by decide, by decide, by decide +kernel⟩)
        (.cons (.inl rfl) .nil)))) .nil)))

end Filter

end DocStore
