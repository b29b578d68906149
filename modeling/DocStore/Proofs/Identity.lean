import Mathlib.Data.List.Forall2
import Mathlib.Data.List.Nodup
import Mathlib.Data.List.Perm.Subperm
import Mathlib.Tactic.Common
import DocStore.Value.Order

/-!
# Strict equality

Strict equality tells apart what is written apart, but for the order of the fields of a document and
the sign of a zero. It is what equality falls back on for code with a scope.

* `Value.induction` is induction over what a value holds; `Value.identicalItems_iff` and
  `Value.identicalFields_iff` say what strict equality asks of the parts.
* `Value.identical_symm` and `Value.identical_trans` are two laws. The first needs the names of a
  document to be different, since fields are looked up by name.
* `Value.identical_self_iff` says that a value is strictly equal to itself just if there is no NaN
  in it (`Value.HasNaN`).
-/

namespace DocStore

/-! ## Lists related element by element -/

section Forall₂

variable {α β : Type*} {r s : α → β → Prop} {xs : List α} {ys : List β}

theorem forall₂_of_mem_zip (h : List.Forall₂ r xs ys)
    (hrs : ∀ x y, (x, y) ∈ xs.zip ys → r x y → s x y) : List.Forall₂ s xs ys := by
  obtain ⟨hlength, hzip⟩ := List.forall₂_iff_zip.1 h
  exact List.forall₂_iff_zip.2 ⟨hlength, fun hmem => hrs _ _ hmem (hzip hmem)⟩

theorem forall₂_of_mem (h : List.Forall₂ r xs ys) (hrs : ∀ x ∈ xs, ∀ y ∈ ys, r x y → s x y) :
    List.Forall₂ s xs ys :=
  forall₂_of_mem_zip h fun x y hmem =>
    hrs x (List.of_mem_zip hmem).1 y (List.of_mem_zip hmem).2

theorem forall₂_trans_of_mem {r : α → α → Prop} {xs ys zs : List α} (h : List.Forall₂ r xs ys)
    (h' : List.Forall₂ r ys zs) (htrans : ∀ x ∈ xs, ∀ y z, r x y → r y z → r x z) :
    List.Forall₂ r xs zs := by
  induction h generalizing zs with
  | nil => exact h'
  | cons hxy _ ih =>
    cases h' with
    | cons hyz hrest =>
      exact .cons (htrans _ List.mem_cons_self _ _ hxy hyz)
        (ih hrest fun x hx => htrans x (List.mem_cons_of_mem _ hx))

end Forall₂

namespace Double

theorem ieeeEqual_iff {a b : Double} :
    a.ieeeEqual b = true ↔
      a.isNaN = false ∧ b.isNaN = false ∧ (a = b ∨ a.magnitude = 0 ∧ b.magnitude = 0) := by
  simp [ieeeEqual, and_assoc]

theorem ieeeEqual_comm (a b : Double) : a.ieeeEqual b = b.ieeeEqual a := by
  rw [Bool.eq_iff_iff, ieeeEqual_iff, ieeeEqual_iff]
  tauto

theorem ieeeEqual_trans {a b c : Double} (h : a.ieeeEqual b = true) (h' : b.ieeeEqual c = true) :
    a.ieeeEqual c = true := by
  obtain ⟨ha, -, hab⟩ := ieeeEqual_iff.1 h
  obtain ⟨-, hc, hbc⟩ := ieeeEqual_iff.1 h'
  refine ieeeEqual_iff.2 ⟨ha, hc, ?_⟩
  rcases hab with rfl | ⟨ha0, hb0⟩
  · exact hbc
  · rcases hbc with rfl | ⟨-, hc0⟩
    · exact .inr ⟨ha0, hb0⟩
    · exact .inr ⟨ha0, hc0⟩

theorem ieeeEqual_self (a : Double) : a.ieeeEqual a = true ↔ a.isNaN = false := by
  simp [ieeeEqual_iff]

end Double

namespace Document

theorem mem_of_get? {doc : Document} {key : String} {v : Value} (h : doc.get? key = some v) :
    (key, v) ∈ doc := by
  induction doc with
  | nil => cases h
  | cons field rest ih =>
    obtain ⟨k, w⟩ := field
    rw [get?] at h
    split_ifs at h with hk
    · rw [← hk, ← Option.some.inj h]
      exact List.mem_cons_self
    · exact List.mem_cons_of_mem _ (ih h)

/-- A document without a repeated name has the fields that it lists. -/
theorem get?_eq_some_iff {doc : Document} (hk : doc.keys.Nodup) {key : String} {v : Value} :
    doc.get? key = some v ↔ (key, v) ∈ doc := by
  refine ⟨mem_of_get?, fun h => ?_⟩
  induction doc with
  | nil => cases h
  | cons field rest ih =>
    obtain ⟨k, w⟩ := field
    obtain ⟨hnew, hrest⟩ := List.nodup_cons.1 hk
    rcases List.mem_cons.1 h with h | h
    · cases h
      exact if_pos rfl
    · have hne : k ≠ key := by
        rintro rfl
        exact hnew (List.mem_map.2 ⟨_, h, rfl⟩)
      rw [get?, if_neg hne, ih hrest h]

end Document

namespace Value

/-! ## Induction over what a value holds -/

/-- Whether a value holds no other values. -/
def isAtom : Value → Bool
  | array _ | document _ | javaScriptWithScope _ _ => false
  | _ => true

/-- A property of all values, from those that hold no others to those that hold them. -/
@[elab_as_elim]
theorem induction {motive : Value → Prop} (atom : ∀ v, v.isAtom = true → motive v)
    (array : ∀ items, (∀ v ∈ items, motive v) → motive (array items))
    (document : ∀ fields : Document, (∀ f ∈ fields, motive f.2) → motive (document fields))
    (scope : ∀ code (fields : Document), (∀ f ∈ fields, motive f.2) →
      motive (javaScriptWithScope code fields)) (v : Value) : motive v := by
  cases v with
  | array items => exact array items fun w hw => induction atom array document scope w
  | document fields => exact document fields fun f hf => induction atom array document scope f.2
  | javaScriptWithScope code fields =>
    exact scope code fields fun f hf => induction atom array document scope f.2
  | _ => exact atom _ rfl
termination_by sizeOf v
decreasing_by
  · have := List.sizeOf_lt_of_mem hw
    simp
    omega
  all_goals
    have := List.sizeOf_lt_of_mem hf
    obtain ⟨k, w⟩ := f
    simp at this ⊢
    omega

/-! ## Parts of lists and documents -/

theorem uniqueKeysItems_iff {items : List Value} :
    uniqueKeysItems items = true ↔ ∀ v ∈ items, v.uniqueKeys = true := by
  induction items with
  | nil => simp [uniqueKeysItems]
  | cons v rest ih => simp [uniqueKeysItems, ih]

theorem uniqueKeysFields_iff {fields : Document} :
    uniqueKeysFields fields = true ↔
      fields.keys.Nodup ∧ ∀ f ∈ fields, f.2.uniqueKeys = true := by
  induction fields with
  | nil => simp [uniqueKeysFields, Document.keys]
  | cons field rest ih =>
    obtain ⟨k, v⟩ := field
    have hkeys : Document.keys ((k, v) :: rest) = k :: Document.keys rest := rfl
    simp only [uniqueKeysFields, Bool.and_eq_true, ih, hkeys, List.nodup_cons, List.forall_mem_cons,
      Bool.not_eq_true', List.contains_eq_mem, decide_eq_false_iff_not]
    tauto

theorem identicalItems_iff {xs ys : List Value} :
    identicalItems xs ys = true ↔ List.Forall₂ (fun x y => identical x y = true) xs ys := by
  induction xs generalizing ys with
  | nil => cases ys <;> simp [identicalItems]
  | cons x xs ih => cases ys <;> simp [identicalItems, ih]

theorem identicalFields_iff {xs ys : Document} :
    identicalFields xs ys = true ↔
      ∀ f ∈ xs, ∃ y, ys.get? f.1 = some y ∧ identical f.2 y = true := by
  induction xs with
  | nil => simp [identicalFields]
  | cons field xs ih =>
    obtain ⟨k, x⟩ := field
    rw [identicalFields, Bool.and_eq_true, ih, List.forall_mem_cons]
    refine and_congr_left' ?_
    cases Document.get? ys k <;> simp

theorem equalItems_iff {xs ys : List Value} :
    equalItems xs ys = true ↔ List.Forall₂ (fun x y => equal x y = true) xs ys := by
  induction xs generalizing ys with
  | nil => cases ys <;> simp [equalItems]
  | cons x xs ih => cases ys <;> simp [equalItems, ih]

theorem equalFields_iff {xs ys : Document} :
    equalFields xs ys = true ↔
      List.Forall₂ (fun f g => f.1 = g.1 ∧ equal f.2 g.2 = true) xs ys := by
  induction xs generalizing ys with
  | nil => cases ys <;> simp [equalFields]
  | cons f xs ih => cases ys <;> simp [equalFields, ih]

/-! ## Strict equality -/

theorem identical_array_iff {xs : List Value} {b : Value} :
    identical (array xs) b = true ↔ ∃ ys, b = array ys ∧ identicalItems xs ys = true := by
  cases b <;> simp [identical]

theorem identical_document_iff {xs : Document} {b : Value} :
    identical (document xs) b = true ↔
      ∃ ys : Document, b = document ys ∧ xs.length = ys.length ∧ identicalFields xs ys = true := by
  cases b <;> simp [identical]

theorem identical_scope_iff {code : String} {xs : Document} {b : Value} :
    identical (javaScriptWithScope code xs) b = true ↔
      ∃ ys : Document, b = javaScriptWithScope code ys ∧ xs.length = ys.length ∧
        identicalFields xs ys = true := by
  cases b with
  | javaScriptWithScope other ys =>
    simp only [identical, Bool.and_eq_true, beq_iff_eq, javaScriptWithScope.injEq]
    constructor
    · rintro ⟨⟨rfl, hlen⟩, h⟩
      exact ⟨ys, ⟨rfl, rfl⟩, hlen, h⟩
    · rintro ⟨_, ⟨rfl, rfl⟩, hlen, h⟩
      exact ⟨⟨rfl, hlen⟩, h⟩
  | _ => simp [identical]

/-- A value that holds no others is strictly equal to itself only, but for the two zeros. -/
theorem identical_of_isAtom {a b : Value} (ha : a.isAtom = true) (h : identical a b = true) :
    (∃ x y, a = double x ∧ b = double y ∧ x.ieeeEqual y = true) ∨ a = b := by
  unfold identical at h
  split at h
  all_goals simp_all [isAtom]

theorem identicalFields_symm {xs ys : Document} (hxs : xs.keys.Nodup) (hys : ys.keys.Nodup)
    (hlen : xs.length = ys.length)
    (hsymm : ∀ f ∈ xs, ∀ g ∈ ys, identical f.2 g.2 = true → identical g.2 f.2 = true)
    (h : identicalFields xs ys = true) : identicalFields ys xs = true := by
  rw [identicalFields_iff] at h ⊢
  -- The two documents have the same names, as those of the first are among the equally many of the
  -- second.
  have hsub : xs.keys ⊆ ys.keys := by
    intro k hk
    obtain ⟨f, hf, rfl⟩ := List.mem_map.1 hk
    obtain ⟨y, hy, -⟩ := h f hf
    exact List.mem_map.2 ⟨_, Document.mem_of_get? hy, rfl⟩
  have hperm : xs.keys.Perm ys.keys :=
    (hxs.subperm hsub).perm_of_length_le (by simp [Document.keys, hlen])
  intro g hg
  obtain ⟨f, hf, hfg⟩ := List.mem_map.1 (hperm.mem_iff.2 (List.mem_map.2 ⟨g, hg, rfl⟩))
  obtain ⟨y, hy, hident⟩ := h f hf
  obtain rfl : g.2 = y := by
    rw [hfg, (Document.get?_eq_some_iff hys).2 hg] at hy
    exact Option.some.inj hy
  exact ⟨f.2, (Document.get?_eq_some_iff hxs).2 (hfg ▸ hf), hsymm f hf g hg hident⟩

theorem identicalFields_trans {xs ys zs : Document}
    (htrans : ∀ f ∈ xs, ∀ y z, identical f.2 y = true → identical y z = true →
      identical f.2 z = true)
    (h : identicalFields xs ys = true) (h' : identicalFields ys zs = true) :
    identicalFields xs zs = true := by
  rw [identicalFields_iff] at h h' ⊢
  intro f hf
  obtain ⟨y, hy, hxy⟩ := h f hf
  obtain ⟨z, hz, hyz⟩ := h' _ (Document.mem_of_get? hy)
  exact ⟨z, hz, htrans f hf y z hxy hyz⟩

theorem identical_symm {a : Value} : ∀ {b : Value}, a.uniqueKeys = true → b.uniqueKeys = true →
    identical a b = true → identical b a = true := by
  induction a using Value.induction with
  | atom a hatom =>
    intro b _ _ h
    obtain ⟨x, y, rfl, rfl, hxy⟩ | rfl := identical_of_isAtom hatom h
    · rwa [identical, Double.ieeeEqual_comm]
    · exact h
  | array xs ih =>
    intro b ha hb h
    obtain ⟨ys, rfl, hxs⟩ := identical_array_iff.1 h
    rw [uniqueKeys, uniqueKeysItems_iff] at ha hb
    rw [identical, identicalItems_iff]
    refine (forall₂_of_mem (identicalItems_iff.1 hxs) fun x hx y hy => ?_).flip
    exact ih x hx (ha x hx) (hb y hy)
  | document xs ih =>
    intro b ha hb h
    obtain ⟨ys, rfl, hlen, hxs⟩ := identical_document_iff.1 h
    rw [uniqueKeys, uniqueKeysFields_iff] at ha hb
    refine identical_document_iff.2 ⟨xs, rfl, hlen.symm, ?_⟩
    exact identicalFields_symm ha.1 hb.1 hlen (fun f hf g hg => ih f hf (ha.2 f hf) (hb.2 g hg)) hxs
  | scope code xs ih =>
    intro b ha hb h
    obtain ⟨ys, rfl, hlen, hxs⟩ := identical_scope_iff.1 h
    rw [uniqueKeys, uniqueKeysFields_iff] at ha hb
    refine identical_scope_iff.2 ⟨xs, rfl, hlen.symm, ?_⟩
    exact identicalFields_symm ha.1 hb.1 hlen (fun f hf g hg => ih f hf (ha.2 f hf) (hb.2 g hg)) hxs

theorem identical_trans {a : Value} : ∀ {b c : Value}, identical a b = true →
    identical b c = true → identical a c = true := by
  induction a using Value.induction with
  | atom a hatom =>
    intro b c h h'
    obtain ⟨x, y, rfl, rfl, hxy⟩ | rfl := identical_of_isAtom hatom h
    · obtain ⟨_, z, hy, rfl, hyz⟩ | rfl := identical_of_isAtom rfl h'
      · cases hy
        exact Double.ieeeEqual_trans hxy hyz
      · exact h
    · exact h'
  | array xs ih =>
    intro b c h h'
    obtain ⟨ys, rfl, hxs⟩ := identical_array_iff.1 h
    obtain ⟨zs, rfl, hys⟩ := identical_array_iff.1 h'
    rw [identical, identicalItems_iff]
    exact forall₂_trans_of_mem (identicalItems_iff.1 hxs) (identicalItems_iff.1 hys)
      fun x hx _ _ => ih x hx
  | document xs ih =>
    intro b c h h'
    obtain ⟨ys, rfl, hlen, hxs⟩ := identical_document_iff.1 h
    obtain ⟨zs, rfl, hlen', hys⟩ := identical_document_iff.1 h'
    exact identical_document_iff.2 ⟨zs, rfl, hlen.trans hlen',
      identicalFields_trans (fun f hf _ _ => ih f hf) hxs hys⟩
  | scope code xs ih =>
    intro b c h h'
    obtain ⟨ys, rfl, hlen, hxs⟩ := identical_scope_iff.1 h
    obtain ⟨zs, rfl, hlen', hys⟩ := identical_scope_iff.1 h'
    exact identical_scope_iff.2 ⟨zs, rfl, hlen.trans hlen',
      identicalFields_trans (fun f hf _ _ => ih f hf) hxs hys⟩

/-- A NaN is somewhere in a value, in scopes of code too. -/
inductive HasNaN : Value → Prop
  | double {d : Double} : d.isNaN = true → HasNaN (double d)
  | item {items : List Value} {v : Value} : v ∈ items → HasNaN v → HasNaN (array items)
  | field {fields : Document} {f : String × Value} :
    f ∈ fields → HasNaN f.2 → HasNaN (document fields)
  | scope {code : String} {fields : Document} {f : String × Value} :
    f ∈ fields → HasNaN f.2 → HasNaN (javaScriptWithScope code fields)

theorem hasNaN_array_iff {items : List Value} :
    HasNaN (array items) ↔ ∃ v ∈ items, HasNaN v :=
  ⟨fun | .item hv h => ⟨_, hv, h⟩, fun ⟨_, hv, h⟩ => .item hv h⟩

theorem hasNaN_document_iff {fields : Document} :
    HasNaN (document fields) ↔ ∃ f ∈ fields, HasNaN f.2 :=
  ⟨fun | .field hf h => ⟨_, hf, h⟩, fun ⟨_, hf, h⟩ => .field hf h⟩

theorem hasNaN_scope_iff {code : String} {fields : Document} :
    HasNaN (javaScriptWithScope code fields) ↔ ∃ f ∈ fields, HasNaN f.2 :=
  ⟨fun | .scope hf h => ⟨_, hf, h⟩, fun ⟨_, hf, h⟩ => .scope hf h⟩

theorem identicalFields_self_iff {xs : Document} (hxs : xs.keys.Nodup) :
    identicalFields xs xs = true ↔ ∀ f ∈ xs, identical f.2 f.2 = true := by
  rw [identicalFields_iff]
  refine forall₂_congr fun f hf => ?_
  simp [(Document.get?_eq_some_iff hxs).2 hf]

/-- A value is strictly equal to itself just if it has no NaN. -/
theorem identical_self_iff {a : Value} :
    a.uniqueKeys = true → (identical a a = true ↔ ¬ HasNaN a) := by
  induction a using Value.induction with
  | atom a hatom =>
    intro _
    cases a with
    | array _ | document _ | javaScriptWithScope _ _ => cases hatom
    | double d =>
      rw [identical, Double.ieeeEqual_self, ← Bool.not_eq_true]
      exact not_congr ⟨.double, fun | .double h => h⟩
    | _ => exact iff_of_true (by simp [identical]) (by rintro ⟨⟩)
  | array xs ih =>
    intro ha
    rw [uniqueKeys, uniqueKeysItems_iff] at ha
    rw [identical, identicalItems_iff, List.forall₂_same, hasNaN_array_iff]
    push Not
    exact forall₂_congr fun x hx => ih x hx (ha x hx)
  | document xs ih =>
    intro ha
    rw [uniqueKeys, uniqueKeysFields_iff] at ha
    rw [identical, beq_self_eq_true, Bool.true_and, identicalFields_self_iff ha.1,
      hasNaN_document_iff]
    push Not
    exact forall₂_congr fun f hf => ih f hf (ha.2 f hf)
  | scope code xs ih =>
    intro ha
    rw [uniqueKeys, uniqueKeysFields_iff] at ha
    rw [identical, beq_self_eq_true, beq_self_eq_true, Bool.true_and, Bool.true_and,
      identicalFields_self_iff ha.1, hasNaN_scope_iff]
    push Not
    exact forall₂_congr fun f hf => ih f hf (ha.2 f hf)

end Value

end DocStore
