import DocStore.Proofs.Identity
import DocStore.Proofs.Numbers

/-!
# Equality

Equality looks into arrays and documents, compares numbers of all kinds by their places and other
values strictly.

* `Value.equal_array_iff`, `Value.equal_document_iff` and `Value.equalAtoms_iff` say what equality
  asks of a value of each kind.
* `Value.equal_symm`, `Value.equal_trans` and `Value.equal_self_iff` are its laws, and
  `Value.equal_laws` states them together. All NaNs are equal as numbers, so that only a NaN in the
  scope of code keeps a value from being equal to itself (`Value.HasNaNScope`).
-/

namespace DocStore

namespace Value

/-! ## Values that are not looked into -/

theorem not_isOpened_of_isAtom {a : Value} (h : a.isAtom = true) : a.isOpened = false := by
  cases a with
  | array _ | document _ => cases h
  | _ => rfl

theorem number?_isSome_of_identical {a b : Value} (h : identical a b = true) :
    a.number?.isSome = b.number?.isSome := by
  unfold identical at h
  split at h
  all_goals simp_all [number?]

theorem isOpened_eq_of_identical {a b : Value} (h : identical a b = true) :
    a.isOpened = b.isOpened := by
  unfold identical at h
  split at h
  all_goals first | rfl | cases h

/-- Equality of values that are not looked into: both are numbers of one place, or neither is a
number and they are strictly equal. -/
theorem equalAtoms_iff {a b : Value} :
    equalAtoms a b = true ↔
      (∃ x y, a.number? = some x ∧ b.number? = some y ∧ x.place = y.place) ∨
        (a.number? = none ∧ b.number? = none ∧ identical a b = true) := by
  unfold equalAtoms
  split
  · rename_i x y hx hy
    rw [Number.compare_eq, beq_iff_eq, cmp_eq_eq_iff]
    simp [hx, hy]
  · rename_i hno
    constructor
    · intro h
      have hsome := number?_isSome_of_identical h
      cases ha : a.number? <;> cases hb : b.number? <;> rw [ha, hb] at hsome
      · exact .inr ⟨rfl, rfl, h⟩
      · cases hsome
      · cases hsome
      · exact (hno _ _ ha hb).elim
    · rintro (⟨x, y, hx, hy, -⟩ | ⟨-, -, h⟩)
      · exact (hno x y hx hy).elim
      · exact h

theorem not_isOpened_of_equalAtoms {a b : Value} (ha : a.isOpened = false)
    (h : equalAtoms a b = true) : b.isOpened = false := by
  rcases equalAtoms_iff.1 h with ⟨x, y, -, hy, -⟩ | ⟨-, -, hab⟩
  · exact not_isOpened_of_number hy
  · rwa [← isOpened_eq_of_identical hab]

/-- A value that holds no others and is no number has no equal but itself. -/
theorem eq_of_equal {a b : Value} (hatom : a.isAtom = true) (hnumber : a.number? = none)
    (h : a.equal b = true) : a = b := by
  rw [(equal_of_not_isOpened b (not_isOpened_of_isAtom hatom)).1, equalAtoms_iff] at h
  rcases h with ⟨x, -, hx, -⟩ | ⟨-, -, hident⟩
  · cases hnumber.symm.trans hx
  · obtain ⟨d, -, rfl, -⟩ | heq := identical_of_isAtom hatom hident
    · cases hnumber
    · exact heq

/-! ## Arrays and documents -/

theorem equal_array_iff {xs : List Value} {b : Value} :
    equal (array xs) b = true ↔
      ∃ ys, b = array ys ∧ List.Forall₂ (fun x y => equal x y = true) xs ys := by
  cases b with
  | array ys => simp [equal, equalItems_iff]
  | _ => simp [equal, equalAtoms, number?, identical]

theorem equal_document_iff {xs : Document} {b : Value} :
    equal (document xs) b = true ↔
      ∃ ys : Document, b = document ys ∧
        List.Forall₂ (fun f g => f.1 = g.1 ∧ equal f.2 g.2 = true) xs ys := by
  cases b with
  | document ys => simp [equal, equalFields_iff]
  | _ => simp [equal, equalAtoms, number?, identical]

theorem equalAtoms_symm {a b : Value} (ha : a.uniqueKeys = true) (hb : b.uniqueKeys = true)
    (h : equalAtoms a b = true) : equalAtoms b a = true := by
  rcases equalAtoms_iff.1 h with ⟨x, y, hx, hy, hxy⟩ | ⟨hx, hy, hident⟩
  · exact equalAtoms_iff.2 (.inl ⟨y, x, hy, hx, hxy.symm⟩)
  · exact equalAtoms_iff.2 (.inr ⟨hy, hx, identical_symm ha hb hident⟩)

theorem equalAtoms_trans {a b c : Value} (h : equalAtoms a b = true)
    (h' : equalAtoms b c = true) : equalAtoms a c = true := by
  rcases equalAtoms_iff.1 h with ⟨x, y, hx, hy, hxy⟩ | ⟨hx, hy, hident⟩ <;>
    rcases equalAtoms_iff.1 h' with ⟨y', z, hy', hz, hyz⟩ | ⟨hy', hz, hident'⟩
  · rw [hy] at hy'
    cases hy'
    exact equalAtoms_iff.2 (.inl ⟨x, z, hx, hz, hxy.trans hyz⟩)
  · rw [hy] at hy'
    cases hy'
  · rw [hy] at hy'
    cases hy'
  · exact equalAtoms_iff.2 (.inr ⟨hx, hz, identical_trans hident hident'⟩)

/-! ## The laws of equality -/

theorem equal_symm {a : Value} : ∀ {b : Value}, a.uniqueKeys = true → b.uniqueKeys = true →
    equal a b = true → equal b a = true := by
  have simple {a b : Value} (hopen : a.isOpened = false) (ha : a.uniqueKeys = true)
      (hb : b.uniqueKeys = true) (h : equal a b = true) : equal b a = true := by
    rw [(equal_of_not_isOpened b hopen).1] at h
    rw [(equal_of_not_isOpened b hopen).2]
    exact equalAtoms_symm ha hb h
  induction a using Value.induction with
  | atom a hatom => exact simple (not_isOpened_of_isAtom hatom)
  | scope code xs _ => exact simple rfl
  | array xs ih =>
    intro b ha hb h
    obtain ⟨ys, rfl, hxs⟩ := equal_array_iff.1 h
    rw [uniqueKeys, uniqueKeysItems_iff] at ha hb
    refine equal_array_iff.2 ⟨xs, rfl, (forall₂_of_mem hxs fun x hx y hy => ?_).flip⟩
    exact ih x hx (ha x hx) (hb y hy)
  | document xs ih =>
    intro b ha hb h
    obtain ⟨ys, rfl, hxs⟩ := equal_document_iff.1 h
    rw [uniqueKeys, uniqueKeysFields_iff] at ha hb
    refine equal_document_iff.2 ⟨xs, rfl, (forall₂_of_mem hxs fun f hf g hg => ?_).flip⟩
    rintro ⟨hkey, hval⟩
    exact ⟨hkey.symm, ih f hf (ha.2 f hf) (hb.2 g hg) hval⟩

theorem equal_trans {a : Value} : ∀ {b c : Value}, equal a b = true → equal b c = true →
    equal a c = true := by
  have simple {a b c : Value} (hopen : a.isOpened = false) (h : equal a b = true)
      (h' : equal b c = true) : equal a c = true := by
    rw [(equal_of_not_isOpened b hopen).1] at h
    rw [(equal_of_not_isOpened c (not_isOpened_of_equalAtoms hopen h)).1] at h'
    rw [(equal_of_not_isOpened c hopen).1]
    exact equalAtoms_trans h h'
  induction a using Value.induction with
  | atom a hatom => exact simple (not_isOpened_of_isAtom hatom)
  | scope code xs _ => exact simple rfl
  | array xs ih =>
    intro b c h h'
    obtain ⟨ys, rfl, hxs⟩ := equal_array_iff.1 h
    obtain ⟨zs, rfl, hys⟩ := equal_array_iff.1 h'
    exact equal_array_iff.2 ⟨zs, rfl, forall₂_trans_of_mem hxs hys fun x hx _ _ => ih x hx⟩
  | document xs ih =>
    intro b c h h'
    obtain ⟨ys, rfl, hxs⟩ := equal_document_iff.1 h
    obtain ⟨zs, rfl, hys⟩ := equal_document_iff.1 h'
    refine equal_document_iff.2 ⟨zs, rfl, forall₂_trans_of_mem hxs hys fun f hf g k => ?_⟩
    rintro ⟨hkey, hval⟩ ⟨hkey', hval'⟩
    exact ⟨hkey.trans hkey', ih f hf hval hval'⟩

/-- A scope with a NaN is somewhere in a value, in arrays and documents but not in other scopes. -/
inductive HasNaNScope : Value → Prop
  | here {code : String} {fields : Document} :
    HasNaN (document fields) → HasNaNScope (javaScriptWithScope code fields)
  | item {items : List Value} {v : Value} :
    v ∈ items → HasNaNScope v → HasNaNScope (array items)
  | field {fields : Document} {f : String × Value} :
    f ∈ fields → HasNaNScope f.2 → HasNaNScope (document fields)

theorem hasNaNScope_array_iff {items : List Value} :
    HasNaNScope (array items) ↔ ∃ v ∈ items, HasNaNScope v :=
  ⟨fun | .item hv h => ⟨_, hv, h⟩, fun ⟨_, hv, h⟩ => .item hv h⟩

theorem hasNaNScope_document_iff {fields : Document} :
    HasNaNScope (document fields) ↔ ∃ f ∈ fields, HasNaNScope f.2 :=
  ⟨fun | .field hf h => ⟨_, hf, h⟩, fun ⟨_, hf, h⟩ => .field hf h⟩

theorem hasNaNScope_scope_iff {code : String} {fields : Document} :
    HasNaNScope (javaScriptWithScope code fields) ↔ HasNaN (javaScriptWithScope code fields) := by
  rw [hasNaN_scope_iff, ← hasNaN_document_iff]
  exact ⟨fun | .here h => h, .here⟩

/-- A value is equal to itself just if it has no scope with a NaN: the NaNs that stand among the
numbers are equal to one another. -/
theorem equal_self_iff {a : Value} :
    a.uniqueKeys = true → (equal a a = true ↔ ¬ HasNaNScope a) := by
  induction a using Value.induction with
  | atom a hatom =>
    intro ha
    rw [(equal_of_not_isOpened a (not_isOpened_of_isAtom hatom)).1, equalAtoms_iff]
    have hscope : ¬ HasNaNScope a := by rintro (_ | _ | _) <;> cases hatom
    refine iff_of_true ?_ hscope
    cases hn : a.number? with
    | some x => exact .inl ⟨x, x, rfl, rfl, rfl⟩
    | none =>
      refine .inr ⟨rfl, rfl, (identical_self_iff ha).2 ?_⟩
      rintro (_ | _ | _ | _)
      · cases hn
      all_goals cases hatom
  | scope code xs _ =>
    intro ha
    rw [(equal_of_not_isOpened _ rfl).1, equalAtoms_iff, hasNaNScope_scope_iff,
      ← identical_self_iff ha]
    simp [number?]
  | array xs ih =>
    intro ha
    rw [uniqueKeys, uniqueKeysItems_iff] at ha
    rw [equal, equalItems_iff, List.forall₂_same, hasNaNScope_array_iff]
    push Not
    exact forall₂_congr fun x hx => ih x hx (ha x hx)
  | document xs ih =>
    intro ha
    rw [uniqueKeys, uniqueKeysFields_iff] at ha
    rw [equal, equalFields_iff, List.forall₂_same, hasNaNScope_document_iff]
    push Not
    simp only [true_and]
    exact forall₂_congr fun f hf => ih f hf (ha.2 f hf)

theorem equal_self_of_isAtom {a : Value} (h : a.isAtom = true) : equal a a = true := by
  have hkeys : a.uniqueKeys = true := by
    cases a with
    | array _ | document _ | javaScriptWithScope _ _ => cases h
    | _ => rfl
  refine (equal_self_iff hkeys).2 ?_
  rintro (_ | _ | _) <;> cases h

/-- **Equality is a lawful equality.** It is symmetric and transitive, over values of any depth in
which no document names a field twice, and a value is equal to itself unless an array or a document
in it, at some depth, leads to code whose scope has a NaN. -/
theorem equal_laws :
    (∀ a b : Value, a.uniqueKeys = true → b.uniqueKeys = true → a.equal b = b.equal a) ∧
      (∀ a b c : Value, a.equal b = true → b.equal c = true → a.equal c = true) ∧
      ∀ a : Value, a.uniqueKeys = true → (a.equal a = true ↔ ¬ a.HasNaNScope) :=
  ⟨fun _ _ ha hb => Bool.eq_iff_iff.2 ⟨equal_symm ha hb, equal_symm hb ha⟩,
    fun _ _ _ => equal_trans, fun _ => equal_self_iff⟩

/-- The laws for one number in three kinds, beside code whose scope is written in two orders. -/
theorem equal_laws_spellings :
    (array [int 1, javaScriptWithScope "f" [("x", null), ("y", int 2)]]).equal
        (array [long 1, javaScriptWithScope "f" [("y", int 2), ("x", null)]]) =
      (array [long 1, javaScriptWithScope "f" [("y", int 2), ("x", null)]]).equal
        (array [int 1, javaScriptWithScope "f" [("x", null), ("y", int 2)]]) ∧
    (array [int 1, javaScriptWithScope "f" [("x", null), ("y", int 2)]]).equal
      (array [double ⟨0x3ff0000000000000⟩, javaScriptWithScope "f" [("x", null), ("y", int 2)]]) =
        true ∧
    (array [double Double.nan, javaScriptWithScope "f" [("x", double Double.nan)]]).equal
      (array [double Double.nan, javaScriptWithScope "f" [("x", double Double.nan)]]) = false := by
  obtain ⟨symm, trans, self⟩ := equal_laws
  refine ⟨symm _ _ (by decide) (by decide), trans _
    (array [long 1, javaScriptWithScope "f" [("y", int 2), ("x", null)]]) _ (by decide)
    (by decide +kernel), ?_⟩
  rw [Bool.eq_false_iff, Ne, self _ (by decide), not_not]
  exact .item (.tail _ (.head _)) (.here (.field (.head _) (.double (by decide))))

end Value

end DocStore
