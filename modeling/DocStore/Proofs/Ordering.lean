import DocStore.Proofs.Equality

/-!
# The order of values

Values of one comparable class are ordered by what they stand for: numbers by their places, texts,
booleans, moments and object identifiers by themselves (`Value.Stands`). Values of two classes have
no order.

* `Value.compare?_eq_some_iff` says that the order of values is that of their standings, and
  `Value.isSome_compare?_iff` that two values have an order just if they are of one class.
* `Value.Stands.of_equal` says that equal values stand for the same.
* `Value.compare?_laws` is the main statement: a total preorder inside each class, which agrees with
  equality.
-/

namespace DocStore

/-! ## Standings -/

/-- The classes of values that have an order among themselves. -/
inductive OrderClass where
  | number
  | text
  | truth
  | moment
  | identifier
  | nothing
  deriving DecidableEq

/-- What a value stands for in the order of its class. -/
inductive Standing where
  | number (x : Scale)
  | text (s : String)
  | truth (b : Bool)
  | moment (millis : ℤ)
  | identifier (n : ℕ)
  | nothing

namespace Standing

/-- The order of two standings of one class. -/
def compare? : Standing → Standing → Option Ordering
  | number x, number y => some (cmp x y)
  | text s, text t => some (cmp s t)
  | truth a, truth b => some (cmp a b)
  | moment m, moment n => some (cmp m n)
  | identifier m, identifier n => some (cmp m n)
  | nothing, nothing => some .eq
  | _, _ => none

/-- The class that a standing is in. Standings of one class are ordered, those of two are not. -/
def orderClass : Standing → OrderClass
  | number _ => .number
  | text _ => .text
  | truth _ => .truth
  | moment _ => .moment
  | identifier _ => .identifier
  | nothing => .nothing

theorem isSome_compare?_iff (p q : Standing) :
    (p.compare? q).isSome = true ↔ p.orderClass = q.orderClass := by
  cases p <;> cases q <;> simp [compare?, orderClass]

@[simp] theorem compare?_self (p : Standing) : p.compare? p = some .eq := by
  cases p with
  | nothing => rfl
  | _ => exact congrArg some (cmp_self_eq_eq _)

theorem compare?_swap (p q : Standing) : q.compare? p = (p.compare? q).map Ordering.swap := by
  cases p <;> cases q <;> first | rfl | exact congrArg some (cmp_swap _ _).symm

end Standing

/-- Two steps that do not go down make one that does not, and one that goes up if either does. -/
def Composes (o o' o'' : Ordering) : Prop :=
  o ≠ .gt → o' ≠ .gt → o'' ≠ .gt ∧ (o = .lt ∨ o' = .lt → o'' = .lt)

theorem cmp_composes {α : Type*} [LinearOrder α] (x y z : α) :
    Composes (cmp x y) (cmp y z) (cmp x z) := by
  intro hxy hyz
  rw [Ne, cmp_eq_gt_iff, not_lt] at hxy hyz
  rw [Ne, cmp_eq_gt_iff, not_lt, cmp_eq_lt_iff, cmp_eq_lt_iff, cmp_eq_lt_iff]
  exact ⟨hxy.trans hyz, fun h => h.elim (·.trans_le hyz) hxy.trans_lt⟩

theorem Standing.compare?_trans {p q r : Standing} {o o' : Ordering} (h : p.compare? q = some o)
    (h' : q.compare? r = some o') :
    ∃ o'', p.compare? r = some o'' ∧ Composes o o' o'' := by
  cases p <;> cases q <;> cases h <;> cases r <;> cases h'
  case nothing.nothing.refl.nothing.refl => exact ⟨_, rfl, fun _ _ => ⟨by decide, by decide⟩⟩
  all_goals exact ⟨_, rfl, cmp_composes _ _ _⟩

namespace Value

/-- The standing of a value; most kinds have none. -/
inductive Stands : Value → Standing → Prop
  | number {a : Value} {x : Number} : a.number? = some x → Stands a (.number x.place)
  | text (s : String) : Stands (string s) (.text s)
  | truth (b : Bool) : Stands (bool b) (.truth b)
  | moment (n : Int64) : Stands (date n) (.moment n.toInt)
  | identifier (id : ObjectId) : Stands (objectId id) (.identifier id.bits.toNat)
  | nothing : Stands null .nothing

theorem Denotes.stands {v : Value} {x : Scale} (h : v.Denotes x) : v.Stands (.number x) := by
  obtain ⟨n, hn, rfl⟩ := h.number
  exact .number hn

/-- The class of a value: the four kinds of number are one class, most kinds are in none. -/
def orderClass? : Value → Option OrderClass
  | int _ | long _ | double _ | decimal _ => some .number
  | string _ => some .text
  | bool _ => some .truth
  | date _ => some .moment
  | objectId _ => some .identifier
  | null => some .nothing
  | _ => none

theorem orderClass?_eq_some_iff {a : Value} {c : OrderClass} :
    a.orderClass? = some c ↔ ∃ p, a.Stands p ∧ p.orderClass = c := by
  constructor
  · intro h
    cases a with
    | int _ | long _ | double _ | decimal _ => exact ⟨_, .number rfl, Option.some.inj h⟩
    | string _ => exact ⟨_, .text _, Option.some.inj h⟩
    | bool _ => exact ⟨_, .truth _, Option.some.inj h⟩
    | date _ => exact ⟨_, .moment _, Option.some.inj h⟩
    | objectId _ => exact ⟨_, .identifier _, Option.some.inj h⟩
    | null => exact ⟨_, .nothing, Option.some.inj h⟩
    | _ => cases h
  · rintro ⟨p, hp, rfl⟩
    cases hp with
    | number hx => cases a with
      | int _ | long _ | double _ | decimal _ => rfl
      | _ => cases hx
    | _ => rfl

theorem Stands.unique {a : Value} {p q : Standing} (hp : a.Stands p) (hq : a.Stands q) : p = q := by
  cases hp with
  | number hx => cases hq with
    | number hy => rw [Option.some.inj (hx.symm.trans hy)]
    | _ => cases hx
  | _ => cases hq with
    | number hy => cases hy
    | _ => rfl

theorem Stands.eq_null {a : Value} (h : a.Stands .nothing) : a = null := by
  cases h
  rfl

/-! ## The order through standings -/

/-- Two values are comparable just if they have standings in one class. -/
theorem compare?_eq_some_iff {a b : Value} {o : Ordering} :
    a.compare? b = some o ↔ ∃ p q, a.Stands p ∧ b.Stands q ∧ p.compare? q = some o := by
  constructor
  · intro h
    unfold compare? at h
    split at h
    · rename_i x y hx hy
      rw [Number.compare_eq] at h
      exact ⟨_, _, .number hx, .number hy, h⟩
    split at h
    · rw [compareOfLessAndEq_eq_cmp] at h
      exact ⟨_, _, .text _, .text _, h⟩
    · rename_i x y _
      exact ⟨_, _, .truth x, .truth y, by cases x <;> cases y <;> exact h⟩
    · rw [compareOfLessAndEq_eq_cmp] at h
      exact ⟨_, _, .moment _, .moment _, h⟩
    · rw [compareOfLessAndEq_eq_cmp] at h
      exact ⟨_, _, .identifier _, .identifier _, h⟩
    · exact ⟨_, _, .nothing, .nothing, h⟩
    · cases h
  · rintro ⟨p, q, hp, hq, h⟩
    cases hp <;> cases hq <;> cases h
    · exact compare?_of_number ‹_› ‹_›
    · exact congrArg some (compareOfLessAndEq_eq_cmp _ _)
    · rename_i x y
      cases x <;> cases y <;> rfl
    · exact congrArg some (compareOfLessAndEq_eq_cmp _ _)
    · exact congrArg some (compareOfLessAndEq_eq_cmp _ _)
    · rfl

theorem isSome_compare?_iff {a b : Value} :
    (a.compare? b).isSome = true ↔ ∃ c, a.orderClass? = some c ∧ b.orderClass? = some c := by
  simp only [orderClass?_eq_some_iff]
  constructor
  · intro h
    obtain ⟨o, ho⟩ := Option.isSome_iff_exists.1 h
    obtain ⟨p, q, hp, hq, hpq⟩ := compare?_eq_some_iff.1 ho
    have hclass := (p.isSome_compare?_iff q).1 (Option.isSome_of_eq_some hpq)
    exact ⟨_, ⟨p, hp, rfl⟩, q, hq, hclass.symm⟩
  · rintro ⟨_, ⟨p, hp, rfl⟩, q, hq, hclass⟩
    obtain ⟨o, ho⟩ := Option.isSome_iff_exists.1 ((p.isSome_compare?_iff q).2 hclass.symm)
    exact Option.isSome_of_eq_some (compare?_eq_some_iff.2 ⟨p, q, hp, hq, ho⟩)

theorem compare?_swap (a b : Value) : b.compare? a = (a.compare? b).map Ordering.swap := by
  ext o
  rw [compare?_eq_some_iff, Option.map_eq_some_iff]
  constructor
  · rintro ⟨q, p, hq, hp, h⟩
    rw [Standing.compare?_swap, Option.map_eq_some_iff] at h
    obtain ⟨o', h', rfl⟩ := h
    exact ⟨o', compare?_eq_some_iff.2 ⟨p, q, hp, hq, h'⟩, rfl⟩
  · rintro ⟨o', h, rfl⟩
    obtain ⟨p, q, hp, hq, h'⟩ := compare?_eq_some_iff.1 h
    exact ⟨q, p, hq, hp, by rw [Standing.compare?_swap, h', Option.map_some]⟩

theorem compare?_trans {a b c : Value} {o o' : Ordering} (h : a.compare? b = some o)
    (h' : b.compare? c = some o') :
    ∃ o'', a.compare? c = some o'' ∧ Composes o o' o'' := by
  obtain ⟨p, q, hp, hq, hpq⟩ := compare?_eq_some_iff.1 h
  obtain ⟨q', r, hq', hr, hqr⟩ := compare?_eq_some_iff.1 h'
  obtain rfl := hq.unique hq'
  obtain ⟨o'', hpr, hcomp⟩ := Standing.compare?_trans hpq hqr
  exact ⟨o'', compare?_eq_some_iff.2 ⟨p, r, hp, hr, hpr⟩, hcomp⟩

/-! ## Order and equality -/

theorem Stands.not_isOpened {a : Value} {p : Standing} (h : a.Stands p) : a.isOpened = false := by
  cases h with
  | number hx => exact not_isOpened_of_number hx
  | _ => rfl

/-- Equal values stand for the same. -/
theorem Stands.of_equal {a b : Value} {p : Standing} (hp : a.Stands p) (h : a.equal b = true) :
    b.Stands p := by
  rw [(equal_of_not_isOpened b hp.not_isOpened).1, equalAtoms_iff] at h
  rcases h with ⟨x, y, hx, hy, hxy⟩ | ⟨hx, -, hident⟩
  · rw [hp.unique (.number hx), hxy]
    exact .number hy
  · have hatom : a.isAtom = true := by
      cases hp with
      | number hx' => cases hx.symm.trans hx'
      | _ => rfl
    obtain ⟨d, e, rfl, -, -⟩ | rfl := identical_of_isAtom hatom hident
    · cases hx
    · exact hp

theorem equal_of_compare? {a b : Value} (h : a.compare? b = some .eq) : a.equal b = true := by
  obtain ⟨p, q, hp, hq, hpq⟩ := compare?_eq_some_iff.1 h
  cases hp with
  | number hx => cases hq with
    | number hy => exact (equal_of_number hx hy).2 (Option.some.inj hpq)
    | _ => cases hpq
  | text s => cases hq with
    | text t =>
      obtain rfl := (cmp_eq_eq_iff _ _).1 (Option.some.inj hpq)
      exact equal_self_of_isAtom rfl
    | _ => cases hpq
  | truth x => cases hq with
    | truth y =>
      obtain rfl := (cmp_eq_eq_iff _ _).1 (Option.some.inj hpq)
      exact equal_self_of_isAtom rfl
    | _ => cases hpq
  | moment m => cases hq with
    | moment n =>
      obtain rfl := Int64.toInt_inj.1 ((cmp_eq_eq_iff _ _).1 (Option.some.inj hpq))
      exact equal_self_of_isAtom rfl
    | _ => cases hpq
  | identifier m => cases hq with
    | identifier n =>
      obtain ⟨m⟩ := m
      obtain ⟨n⟩ := n
      obtain rfl := BitVec.eq_of_toNat_eq ((cmp_eq_eq_iff _ _).1 (Option.some.inj hpq))
      exact equal_self_of_isAtom rfl
    | _ => cases hpq
  | nothing => cases hq with
    | nothing => exact equal_self_of_isAtom rfl
    | _ => cases hpq

theorem compare?_of_equal {a b : Value} (h : a.equal b = true) (hc : (a.compare? b).isSome) :
    a.compare? b = some .eq := by
  obtain ⟨o, ho⟩ := Option.isSome_iff_exists.1 hc
  obtain ⟨p, q, hp, hq, hpq⟩ := compare?_eq_some_iff.1 ho
  obtain rfl := (hp.of_equal h).unique hq
  exact compare?_eq_some_iff.2 ⟨p, p, hp, hq, p.compare?_self⟩

/-- **The order of values is a total preorder inside each class and agrees with equality.** Two
values are comparable just if they are of one class; exchanging the values reverses the order; a
value that is comparable with two makes them comparable, and two steps that do not go down make one
that does not, going up if either does; values are in the order of equals just if they are
comparable and equal. -/
theorem compare?_laws :
    (∀ a b : Value, (a.compare? b).isSome = true ↔
      ∃ c, a.orderClass? = some c ∧ b.orderClass? = some c) ∧
    (∀ a b : Value, b.compare? a = (a.compare? b).map Ordering.swap) ∧
      (∀ (a b c : Value) (o o' : Ordering), a.compare? b = some o → b.compare? c = some o' →
        ∃ o'', a.compare? c = some o'' ∧
          (o ≠ .gt → o' ≠ .gt → o'' ≠ .gt ∧ (o = .lt ∨ o' = .lt → o'' = .lt))) ∧
      (∀ a b : Value, a.compare? b = some .eq → a.equal b = true) ∧
      ∀ a b : Value, a.equal b = true → (a.compare? b).isSome = true → a.compare? b = some .eq :=
  ⟨fun _ _ => isSome_compare?_iff, compare?_swap, fun _ _ _ _ _ => compare?_trans,
    fun _ _ => equal_of_compare?, fun _ _ => compare?_of_equal⟩

/-- A NaN is below the integer one and that below `1.5`, and one is one in two kinds. -/
theorem compare?_laws_one :
    (∃ o, (double Double.nan).compare? (double ⟨0x3ff8000000000000⟩) = some o ∧ o = .lt) ∧
      (int 1).equal (double ⟨0x3ff0000000000000⟩) = true ∧
      (long 1).compare? (double ⟨0x3ff0000000000000⟩) = some .eq := by
  obtain ⟨comparable, -, trans, equal, agrees⟩ := compare?_laws
  obtain ⟨o, ho, hlt⟩ := trans (double Double.nan) (int 1) (double ⟨0x3ff8000000000000⟩) .lt .lt
    (by decide +kernel) (by decide +kernel)
  exact ⟨⟨o, ho, (hlt (by decide) (by decide)).2 (.inl rfl)⟩, equal _ _ (by decide +kernel),
    agrees _ _ (by decide +kernel) ((comparable _ _).2 ⟨.number, rfl, rfl⟩)⟩

end Value

end DocStore
