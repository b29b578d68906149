import DocStore.Proofs.Nearest

/-!
# Decimals among numbers

A decimal is compared as the double nearest to it, with integers exactly and with other decimals
after each has been rounded. What is lost depends on the other number: the order of decimals and
doubles is kept, although different ones may become equal, while an integer can change its side.

* `Decimal.number` is the number of a finite decimal; `Decimal.nearest_toDouble` says that the
  double it is compared as is the nearest one.
* `Value.Counts` says which number a finite value is, and `Value.Taken` at which place of the scale
  it is compared.
* `Value.compare?_rounded` is the main statement, and `Value.compare?_inexact` the refutation of the
  statement without rounding.
-/

namespace DocStore

/-! ## Doubles of one number -/

namespace Double

variable {a b : Double}

theorem place_of_isFinite (hn : a.isNaN = false) (hi : a.isInfinite = false) :
    a.place = .finite a.rational := by
  rw [place, if_neg (by simp [hn]), if_neg (by simp [hi])]

/-- Doubles are in the order of their numbers, with an infinity as `2 ^ 1024`. -/
theorem cmp_place (ha : a.isNaN = false) (hb : b.isNaN = false) :
    cmp a.place b.place = cmp a.rational b.rational := by
  have hU : (0 : ℚ) < unitsPerOne := Nat.cast_pos.2 unitsPerOne_pos
  have hmono : StrictMono fun z : ℤ => (z : ℚ) / unitsPerOne := fun _ _ h =>
    (div_lt_div_iff_of_pos_right hU).2 (Int.cast_lt.2 h)
  obtain ⟨pa, ma⟩ := place_eq ha
  obtain ⟨pb, mb⟩ := place_eq hb
  rw [pa, pb, Scale.ofUnits_strictMonoOn.cmp_map_eq ma mb, rational_eq, rational_eq]
  exact (hmono.cmp_map_eq a.units b.units).symm

theorem place_eq_of_rational_eq (ha : a.isNaN = false) (hb : b.isNaN = false)
    (h : a.rational = b.rational) : a.place = b.place := by
  rw [← cmp_eq_eq_iff, cmp_place ha hb, h, cmp_self_eq_eq]

end Double

@[simp] theorem Scale.cmp_finite (p q : ℚ) : cmp (Scale.finite p) (Scale.finite q) = cmp p q := by
  have hmono : StrictMono Scale.finite := fun _ _ => Scale.finite_lt_finite.2
  exact hmono.cmp_map_eq p q

/-! ## The number of a decimal -/

namespace Decimal

/-- The number of a sign, a coefficient and an exponent of ten. -/
def number (negative : Bool) (coefficient : ℕ) (exponent : ℤ) : ℚ :=
  (if negative then -1 else 1) * (coefficient * 10 ^ exponent)

/-- A decimal is compared as the double nearest to its number. -/
theorem nearest_toDouble (s : Bool) (c : ℕ) (e : ℤ) :
    Double.Nearest (number s c e) (finite s c e).toDouble := by
  have hten : ((c * Nat.pow 10 e.toNat : ℕ) : ℚ) / (Nat.pow 10 (-e).toNat : ℕ) =
      c * (10 : ℚ) ^ e := by
    rw [Nat.cast_mul, Nat.pow_eq, Nat.pow_eq, Nat.cast_pow, Nat.cast_pow, Nat.cast_ofNat,
      mul_div_assoc, ← zpow_natCast, ← zpow_natCast, ← zpow_sub₀ (by norm_num)]
    congr 2
    omega
  rw [number, ← hten]
  exact Double.nearest_ofRatio s _ (Nat.pow_pos (by decide))

end Decimal

/-! ## Values as numbers -/

namespace Value

/-- The number that a finite value is. -/
inductive Counts : Value → ℚ → Prop
  | int (n : Int32) : Counts (.int n) n.toInt
  | long (n : Int64) : Counts (.long n) n.toInt
  | double {d : Double} : d.isNaN = false → d.isInfinite = false → Counts (.double d) d.rational
  | decimal (s : Bool) (c : ℕ) (e : ℤ) : Counts (.decimal (.finite s c e)) (Decimal.number s c e)

/-- The place at which a number is compared: that of an integer and of a double is its own, and a
decimal is at that of the nearest double. -/
inductive Taken : Value → Scale → Prop
  | exact {v : Value} {x : Scale} : v.Denotes x → Taken v x
  | rounded {s : Bool} {c : ℕ} {e : ℤ} {near : Double} :
    near.Nearest (Decimal.number s c e) → Taken (.decimal (.finite s c e)) near.place

/-- Whether a value is an integer. -/
def isInteger : Value → Bool
  | .int _ | .long _ => true
  | _ => false

variable {v w : Value} {x y : Scale} {p q : ℚ}

theorem Taken.number (h : v.Taken x) : ∃ n, v.number? = some n ∧ n.place = x := by
  cases h with
  | exact h => exact h.number
  | @rounded s c e near h =>
    have hnear := Decimal.nearest_toDouble s c e
    exact ⟨_, rfl, Double.place_eq_of_rational_eq hnear.isNumber h.isNumber (hnear.unique h)⟩

/-- Numbers compare as the places at which they are taken. -/
theorem compare?_of_taken (hv : v.Taken x) (hw : w.Taken y) :
    v.compare? w = some (cmp x y) ∧ (v.equal w = true ↔ x = y) := by
  obtain ⟨m, hm, rfl⟩ := hv.number
  obtain ⟨n, hn, rfl⟩ := hw.number
  exact ⟨compare?_of_number hm hn, (equal_of_number hm hn).trans (cmp_eq_eq_iff _ _)⟩

/-- A number that is no integer is taken as the nearest double, also where it is one. -/
theorem Counts.nearest (h : v.Counts q) (hi : v.isInteger = false) :
    ∃ near : Double, near.Nearest q ∧ v.Taken near.place := by
  cases h with
  | int n => cases hi
  | long n => cases hi
  | @double d hn hinf => exact ⟨d, .self hn, .exact (.double d)⟩
  | decimal s c e =>
    have hnear := Decimal.nearest_toDouble s c e
    exact ⟨_, hnear, .rounded hnear⟩

/-- An integer is taken at its number, and so is any number that a double is. -/
theorem Counts.taken_finite (h : v.Counts q)
    (hexact : v.isInteger = true ∨ ∃ f, (Value.double f).Counts q) : v.Taken (.finite q) := by
  cases hi : v.isInteger with
  | true =>
    cases h with
    | int n => exact .exact (.int n)
    | long n => exact .exact (.long n)
    | double _ _ => cases hi
    | decimal _ _ _ => cases hi
  | false =>
    obtain ⟨near, hnear, htaken⟩ := h.nearest hi
    obtain hinteger | ⟨f, hf⟩ := hexact
    · cases hi.symm.trans hinteger
    · cases hf with
      | double hn hinf =>
        rwa [Double.place_eq_of_rational_eq hnear.isNumber hn (hnear.unique (.self hn)),
          Double.place_of_isFinite hn hinf] at htaken

theorem Counts.exists_taken (h : v.Counts q) : ∃ y, v.Taken y := by
  cases hi : v.isInteger with
  | true => exact ⟨_, h.taken_finite (.inl hi)⟩
  | false =>
    obtain ⟨near, -, htaken⟩ := h.nearest hi
    exact ⟨_, htaken⟩

/-- **A decimal is compared as the nearest double.** Where its number is that of a double, and the
other number is an integer or that of a double as well, they are in the order of their numbers.
Beside a double or a decimal it never stands on the wrong side, and equal numbers are equal; but
different ones may be equal, and beside an integer the rounded number decides. -/
theorem compare?_rounded (s : Bool) (c : ℕ) (e : ℤ) {x : Value} {q : ℚ} (hx : x.Counts q) :
    let d := decimal (.finite s c e)
    let p := Decimal.number s c e
    (∃ (near : Double) (y : Scale), near.Nearest p ∧ x.Taken y ∧
      d.compare? x = some (cmp near.place y) ∧ (d.equal x = true ↔ near.place = y)) ∧
    ((∃ f, (double f).Counts p) → (x.isInteger = true ∨ ∃ g, (double g).Counts q) →
      d.compare? x = some (cmp p q) ∧ (d.equal x = true ↔ p = q)) ∧
    (x.isInteger = false → ∃ o, d.compare? x = some o ∧
      (p < q → o ≠ .gt) ∧ (q < p → o ≠ .lt) ∧ (p = q → o = .eq)) := by
  intro d p
  have hd : d.Counts p := .decimal s c e
  have hnear := Decimal.nearest_toDouble s c e
  refine ⟨?_, fun hp hq => ?_, fun hi => ?_⟩
  · obtain ⟨y, hy⟩ := hx.exists_taken
    exact ⟨_, y, hnear, hy, compare?_of_taken (.rounded hnear) hy⟩
  · obtain ⟨horder, hequal⟩ :=
      compare?_of_taken (hd.taken_finite (.inr hp)) (hx.taken_finite hq)
    rw [Scale.cmp_finite] at horder
    exact ⟨horder, hequal.trans Scale.finite_injective.eq_iff⟩
  · obtain ⟨near, hq, htaken⟩ := hx.nearest hi
    refine ⟨_, (compare?_of_taken (.rounded hnear) htaken).1, ?_⟩
    rw [Double.cmp_place hnear.isNumber hq.isNumber]
    refine ⟨fun hlt => ?_, fun hgt => ?_, fun heq => ?_⟩
    · rw [Ne, cmp_eq_gt_iff, not_lt]
      exact hnear.mono hq hlt.le
    · rw [Ne, cmp_eq_lt_iff, not_lt]
      exact hq.mono hnear hgt.le
    · rw [cmp_eq_eq_iff]
      exact le_antisymm (hnear.mono hq heq.le) (hq.mono hnear heq.ge)

/-- A decimal of sixteen digits beside the double `2 ^ 53`, which is less, and a decimal that is a
double beside an integer. -/
theorem compare?_rounded_two_pow_53 :
    (∃ o, (decimal (.finite false 9007199254740993 0)).compare? (double ⟨0x4340000000000000⟩) =
        some o ∧ o ≠ .lt) ∧
      (decimal (.finite false 15 (-1))).compare? (long 1) = some .gt ∧
      (decimal (.finite false 15 (-1))).equal (long 1) = false := by
  have hbits : (⟨0x4340000000000000⟩ : Double).rational = 9007199254740992 := by
    have hn : (⟨0x4340000000000000⟩ : Double).negative = false := by decide
    have he : (⟨0x4340000000000000⟩ : Double).exponentField = 1076 := by decide
    have hf : (⟨0x4340000000000000⟩ : Double).fraction = 0 := by decide
    rw [Double.rational, hn, he, hf]
    norm_num
  have hhalf : (⟨0x3ff8000000000000⟩ : Double).rational = Decimal.number false 15 (-1) := by
    have hn : (⟨0x3ff8000000000000⟩ : Double).negative = false := by decide
    have he : (⟨0x3ff8000000000000⟩ : Double).exponentField = 1023 := by decide
    have hf : (⟨0x3ff8000000000000⟩ : Double).fraction = 2251799813685248 := by decide
    rw [Double.rational, hn, he, hf, Decimal.number]
    norm_num
  obtain ⟨-, -, hside⟩ := compare?_rounded false 9007199254740993 0
    (.double (d := ⟨0x4340000000000000⟩) (by decide) (by decide))
  obtain ⟨-, hexact, -⟩ := compare?_rounded false 15 (-1) (.long 1)
  obtain ⟨o, horder, -, hgreater, -⟩ := hside rfl
  obtain ⟨hgt, hequal⟩ := hexact
    ⟨⟨0x3ff8000000000000⟩, hhalf ▸ .double (by decide) (by decide)⟩ (.inl rfl)
  have hone : ((1 : Int64).toInt : ℚ) < Decimal.number false 15 (-1) := by
    have h1 : (1 : Int64).toInt = 1 := by decide
    rw [h1, Decimal.number]
    norm_num
  refine ⟨⟨o, horder, hgreater ?_⟩, ?_, ?_⟩
  · rw [hbits, Decimal.number]
    norm_num
  · rw [hgt, (cmp_eq_gt_iff _ _).2 hone]
  · rw [Bool.eq_false_iff]
    exact mt hequal.1 hone.ne'

/-- Decimals are not compared by their numbers: one of sixteen digits is not equal to the same
integer, but below it. -/
theorem compare?_inexact :
    ¬ ∀ (s : Bool) (c : ℕ) (e : ℤ) (x : Value) (q : ℚ), c < 10 ^ 34 → -6176 ≤ e → e ≤ 6111 →
        x.Counts q →
          ((decimal (.finite s c e)).equal x = true ↔ Decimal.number s c e = q) ∧
            (decimal (.finite s c e)).compare? x = some (cmp (Decimal.number s c e) q) := by
  intro hexact
  have hlong : (9007199254740993 : Int64).toInt = 9007199254740993 := by decide
  have hnumber : Decimal.number false 9007199254740993 0 =
      ((9007199254740993 : Int64).toInt : ℚ) := by
    rw [hlong, Decimal.number]
    norm_num
  have hequal := (hexact false 9007199254740993 0 (.long 9007199254740993) _ (by norm_num)
    (by norm_num) (by norm_num) (.long _)).1.2 hnumber
  have hbelow : (decimal (.finite false 9007199254740993 0)).equal (long 9007199254740993) =
      false := by decide +kernel
  cases hbelow.symm.trans hequal

end Value

end DocStore
