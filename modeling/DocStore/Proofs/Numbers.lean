import Mathlib
import DocStore.Proofs.Doubles
import DocStore.Value.Order

/-!
# The order of numbers

Every number has a place on one scale: a NaN at the bottom, then minus infinity, the rational
numbers and infinity. Numbers of both kinds compare as their places do, although the comparison
never makes an integer a double.

* `Double.rational` is the number that the bits of a finite double denote, and `Double.rational_eq`
  says that it is its units. `Scale.ofUnits_strictMonoOn` carries comparisons of units to the scale.
* `Number.compareDouble_eq_units` is about an integer beside a double: the two guards, the cast and
  the sign of the rest together give the order of their units.
* `Number.compare_eq` says that numbers compare as their places do.
* `Value.compare?_denoted` is the main statement, about values that are integers or doubles.
-/

namespace DocStore

/-! ## Orderings -/

theorem compareOfLessAndEq_eq_cmp {α : Type*} [LinearOrder α] [DecidableEq α]
    (a b : α) [Decidable (a < b)] : compareOfLessAndEq a b = cmp a b := by
  unfold compareOfLessAndEq
  rcases lt_trichotomy a b with h | h | h
  · rw [if_pos h, (cmp_eq_lt_iff a b).2 h]
  · rw [if_neg h.not_lt, if_pos h, (cmp_eq_eq_iff a b).2 h]
  · rw [if_neg h.not_gt, if_neg h.ne', (cmp_eq_gt_iff a b).2 h]

/-! ## The numbers in order -/

/-- The rational numbers between two infinities, and a place below them all. -/
abbrev Scale := WithBot (WithBot (WithTop ℚ))

namespace Scale

/-- The place of every NaN. -/
def nan : Scale := ⊥

/-- The place below all rational numbers. -/
def minusInfinity : Scale := ((⊥ : WithBot (WithTop ℚ)) : Scale)

/-- The place of a rational number. -/
def finite (q : ℚ) : Scale := (((q : WithTop ℚ) : WithBot (WithTop ℚ)) : Scale)

/-- The place above all rational numbers. -/
def infinity : Scale := (((⊤ : WithTop ℚ) : WithBot (WithTop ℚ)) : Scale)

@[simp] theorem nan_lt_finite (q : ℚ) : nan < finite q := WithBot.bot_lt_coe _

@[simp] theorem minusInfinity_lt_finite (q : ℚ) : minusInfinity < finite q :=
  WithBot.coe_lt_coe.2 (WithBot.bot_lt_coe _)

@[simp] theorem finite_lt_finite {p q : ℚ} : finite p < finite q ↔ p < q := by
  rw [finite, finite, WithBot.coe_lt_coe, WithBot.coe_lt_coe, WithTop.coe_lt_coe]

theorem finite_injective : Function.Injective finite := fun _ _ h =>
  WithTop.coe_injective (WithBot.coe_injective (WithBot.coe_injective h))

@[simp] theorem finite_lt_infinity (q : ℚ) : finite q < infinity :=
  WithBot.coe_lt_coe.2 (WithBot.coe_lt_coe.2 (WithTop.coe_lt_top _))

/-- The place of a whole number of units, of which an infinity has `Double.infinityUnits`. -/
def ofUnits (z : ℤ) : Scale :=
  if z ≤ -(Double.infinityUnits : ℤ) then minusInfinity
  else if (Double.infinityUnits : ℤ) ≤ z then infinity
  else finite (z / Double.unitsPerOne)

theorem ofUnits_strictMonoOn :
    StrictMonoOn ofUnits (Set.Icc (-(Double.infinityUnits : ℤ)) Double.infinityUnits) := by
  intro a ha b hb hab
  obtain ⟨ha, -⟩ := ha
  obtain ⟨-, hb⟩ := hb
  have hU : (0 : ℚ) < Double.unitsPerOne := Nat.cast_pos.2 Double.unitsPerOne_pos
  unfold ofUnits
  generalize Double.infinityUnits = I at *
  rw [if_neg (by omega : ¬ b ≤ -(I : ℤ)), if_neg (by omega : ¬ (I : ℤ) ≤ a)]
  split_ifs
  · exact (minusInfinity_lt_finite 0).trans (finite_lt_infinity 0)
  · exact minusInfinity_lt_finite _
  · exact finite_lt_infinity _
  · exact finite_lt_finite.2 ((div_lt_div_iff_of_pos_right hU).2 (Int.cast_lt.2 hab))

end Scale

/-! ## The number that a double denotes -/

namespace Double

/-- The number of a pattern that is neither a NaN nor an infinity: a sign before a fraction of 52
binary places, with a leading one and a power of two from the exponent field, or without the one and
with the least power where the exponent field is zero. -/
def rational (d : Double) : ℚ :=
  (if d.negative then -1 else 1) *
    if d.exponentField = 0 then d.fraction / 2 ^ 52 * (2 : ℚ) ^ (-1022 : ℤ)
    else (1 + d.fraction / 2 ^ 52) * (2 : ℚ) ^ ((d.exponentField : ℤ) - 1023)

/-- The place of a double. -/
def place (d : Double) : Scale :=
  if d.isNaN then .nan
  else if d.isInfinite then if d.negative then .minusInfinity else .infinity
  else .finite d.rational

theorem place_of_isNaN {d : Double} (h : d.isNaN = true) : d.place = .nan := if_pos h

theorem nan_lt_place {d : Double} (h : d.isNaN = false) : .nan < d.place := by
  rw [place, if_neg (by simp [h])]
  split_ifs <;> exact WithBot.bot_lt_coe _

theorem two_zpow_eq {k : ℤ} (n : ℕ) (h : k = n - 1074) : (2 : ℚ) ^ k = 2 ^ n / unitsPerOne := by
  obtain ⟨m, hm⟩ : ∃ m, m = 1074 := ⟨_, rfl⟩
  have hk : k = (n : ℤ) - (m : ℤ) := by omega
  rw [hk, unitsPerOne_eq hm, zpow_sub₀ two_ne_zero, zpow_natCast, zpow_natCast, Nat.cast_pow,
    Nat.cast_ofNat]

/-- A finite double denotes its units. -/
theorem rational_eq (d : Double) : d.rational = d.units / unitsPerOne := by
  have hmag : (d.magnitude : ℚ) / unitsPerOne =
      if d.exponentField = 0 then d.fraction / 2 ^ 52 * (2 : ℚ) ^ (-1022 : ℤ)
      else (1 + d.fraction / 2 ^ 52) * (2 : ℚ) ^ ((d.exponentField : ℤ) - 1023) := by
    split_ifs with he
    · rw [magnitude, if_pos he, two_zpow_eq 52 (by norm_num)]
      ring
    · rw [magnitude_of_exponentField_pos (by omega),
        two_zpow_eq (52 + (d.exponentField - 1)) (by omega)]
      push_cast
      ring
  rw [rational, units, ← hmag]
  split_ifs <;> push_cast <;> ring

theorem place_eq {d : Double} (h : d.isNaN = false) :
    d.place = .ofUnits d.units ∧
      d.units ∈ Set.Icc (-(infinityUnits : ℤ)) infinityUnits := by
  have hpos : 0 < infinityUnits := lt_of_le_of_lt (Nat.zero_le _) int64_lt_infinityUnits
  rw [place, if_neg (by simp [h]), Scale.ofUnits, Set.mem_Icc]
  by_cases hi : d.isInfinite = true
  · rw [if_pos hi, units, magnitude_of_isInfinite hi]
    generalize infinityUnits = I at hpos
    split_ifs <;> first | omega | exact ⟨rfl, by omega⟩
  · have hlt := magnitude_lt_of_isFinite h (Bool.eq_false_iff.2 hi)
    rw [← natAbs_units] at hlt
    rw [if_neg hi, rational_eq]
    generalize infinityUnits = I at hlt
    rw [if_neg (by omega), if_neg (by omega)]
    exact ⟨rfl, by omega⟩

end Double

/-! ## The order of numbers -/

namespace Double

/-- The order of doubles is that of their places. -/
theorem partialCompare_eq {a b : Double} (ha : a.isNaN = false) (hb : b.isNaN = false) :
    a.partialCompare b = some (cmp a.place b.place) := by
  obtain ⟨pa, ma⟩ := place_eq ha
  obtain ⟨pb, mb⟩ := place_eq hb
  rw [partialCompare, if_neg (by simp [ha, hb]), compareOfLessAndEq_eq_cmp, pa, pb,
    Scale.ofUnits_strictMonoOn.cmp_map_eq ma mb]

@[simp] theorem isNaN_zero : zero.isNaN = false := by decide

@[simp] theorem units_zero : zero.units = 0 := by decide

/-- Rounding a difference keeps its sign. -/
theorem zero_partialCompare_sub (a b : Double) :
    zero.partialCompare (a.sub b) = some (cmp b.units a.units) := by
  obtain ⟨hnan, hneg, hzero⟩ : (a.sub b).isNaN = false ∧
      (a.sub b).negative =
        (if a.units - b.units = 0 then a.negative && !b.negative else a.units - b.units < 0) ∧
      ((a.sub b).magnitude = 0 ↔ (a.units - b.units).natAbs = 0) := ofRatio_fields _ _
  rw [partialCompare, if_neg (by simp [hnan]), units_zero, compareOfLessAndEq_eq_cmp,
    units, Option.some.injEq]
  rcases lt_trichotomy b.units a.units with h | h | h
  · have hs : (a.sub b).negative = false := by
      rw [hneg, if_neg (by omega), decide_eq_false_iff_not]
      omega
    rw [(cmp_eq_lt_iff _ _).2 h, cmp_eq_lt_iff, hs, if_neg (by decide)]
    omega
  · rw [(cmp_eq_eq_iff _ _).2 h, cmp_eq_eq_iff, hzero.2 (by omega)]
    split_ifs <;> rfl
  · have hs : (a.sub b).negative = true := by
      rw [hneg, if_neg (by omega), decide_eq_true_iff]
      omega
    rw [(cmp_eq_gt_iff _ _).2 h, cmp_eq_gt_iff, hs, if_pos rfl]
    omega

end Double

namespace Number

open Double

/-- The place of a number. -/
def place : Number → Scale
  | integer n => .finite n.toInt
  | double d => d.place

/-- The double `2 ^ 63` in units. -/
theorem units_int64Limit : int64Limit.units = 2 ^ 63 * (unitsPerOne : ℤ) := by
  have hmag : int64Limit.magnitude = 2 ^ 63 * unitsPerOne := by
    obtain ⟨n, hn⟩ : ∃ n, n = 1074 := ⟨_, rfl⟩
    have he : int64Limit.exponentField = 1086 := by decide
    have hf : int64Limit.fraction = 0 := by decide
    rw [magnitude_of_exponentField_pos (by omega), hf, unitsPerOne_eq hn, Nat.add_zero,
      ← Nat.pow_add, ← Nat.pow_add]
    congr 1
    omega
  have hs : int64Limit.negative = false := by decide
  rw [units, hs, hmag, if_neg (by decide), Nat.cast_mul, Nat.cast_pow, Nat.cast_ofNat]

theorem units_neg_int64Limit : int64Limit.neg.units = -(2 ^ 63 * (unitsPerOne : ℤ)) := by
  have hmag : int64Limit.neg.magnitude = int64Limit.magnitude := by
    have he : int64Limit.neg.exponentField = int64Limit.exponentField := by decide
    have hf : int64Limit.neg.fraction = int64Limit.fraction := by decide
    rw [magnitude, magnitude, he, hf]
  have hs : int64Limit.negative = false := by decide
  have hn : int64Limit.neg.negative = true := by decide
  rw [← units_int64Limit, units, units, hn, hs, hmag, if_pos rfl, if_neg (by decide)]

theorem belowInt64_iff {d : Double} (h : d.isNaN = false) :
    belowInt64 d = true ↔ d.units < -(2 ^ 63 * (unitsPerOne : ℤ)) := by
  have hl : int64Limit.neg.isNaN = false := by decide
  rw [belowInt64, partialCompare, if_neg (by simp [h, hl]), compareOfLessAndEq_eq_cmp,
    units_neg_int64Limit, beq_iff_eq, Option.some.injEq, cmp_eq_lt_iff]

theorem aboveInt64_iff {d : Double} (h : d.isNaN = false) :
    aboveInt64 d = true ↔ 2 ^ 63 * (unitsPerOne : ℤ) ≤ d.units := by
  have hl : int64Limit.isNaN = false := by decide
  rw [aboveInt64, partialCompare, if_neg (by simp [h, hl]), compareOfLessAndEq_eq_cmp,
    units_int64Limit, Option.any_some, Ordering.isGE_iff_ne_lt, cmp_eq_lt_iff, not_lt]

/-- A number of units is its whole part and a rest of its sign that is less than one. -/
theorem units_split (d : Double) :
    ∃ r : ℤ, d.units = d.units.tdiv unitsPerOne * unitsPerOne + r ∧ -(unitsPerOne : ℤ) < r ∧
      r < unitsPerOne ∧ (0 ≤ d.units → 0 ≤ r) := by
  have hU : (0 : ℤ) < unitsPerOne := Int.natCast_pos.2 unitsPerOne_pos
  refine ⟨d.units.tmod unitsPerOne, ?_, Int.lt_tmod_of_pos _ hU, Int.tmod_lt_of_pos _ hU,
    Int.tmod_nonneg _⟩
  rw [Int.mul_comm, Int.mul_tdiv_add_tmod]

theorem isFinite_of_within {d : Double} (h : d.isNaN = false) (hb : belowInt64 d = false)
    (ha : aboveInt64 d = false) : d.exponentField < 2047 := by
  have hlow := mt (belowInt64_iff h).2 (by simp [hb])
  have hhigh := mt (aboveInt64_iff h).2 (by simp [ha])
  refine exponentField_lt_of_isFinite h (Bool.eq_false_iff.2 fun hi => ?_)
  have hmag := magnitude_of_isInfinite hi
  have hlt := int64_lt_infinityUnits
  have habs := d.natAbs_units
  omega

/-- Between the two limits the whole part of a double is an integer of 64 bits, and it is cast to
that integer. -/
theorem toInt_toInt64_trunc {d : Double} (h : d.isNaN = false) (hb : belowInt64 d = false)
    (ha : aboveInt64 d = false) : d.trunc.toInt64.toInt = d.units.tdiv unitsPerOne := by
  have hU : (0 : ℤ) < unitsPerOne := Int.natCast_pos.2 unitsPerOne_pos
  have hlow := mt (belowInt64_iff h).2 (by simp [hb])
  have hhigh := mt (aboveInt64_iff h).2 (by simp [ha])
  have hnan := isNaN_trunc (isFinite_of_within h hb ha)
  obtain ⟨r, hsplit, hr, hr', hsign⟩ := units_split d
  rw [toInt64, if_neg (by simp [hnan]), units_trunc, Int.mul_tdiv_cancel _ hU.ne']
  generalize d.units.tdiv unitsPerOne = q at hsplit
  refine Int64.toInt_ofIntClamp ?_ ?_
  · rw [Int64.toInt_minValue]
    by_contra hlt
    have := mul_le_mul_of_nonneg_right (show q ≤ -2 ^ 63 - 1 by omega) hU.le
    omega
  · rw [Int64.toInt_maxValue]
    by_contra hgt
    have := mul_le_mul_of_nonneg_right (show 2 ^ 63 ≤ q by omega) hU.le
    omega

/-- An integer and a double compare as their units do. -/
theorem compareDouble_eq_units (n : Int64) {d : Double} (h : d.isNaN = false) :
    compareDouble n d = cmp (n.toInt * (unitsPerOne : ℤ)) d.units := by
  have hU : (0 : ℤ) < unitsPerOne := Int.natCast_pos.2 unitsPerOne_pos
  rw [compareDouble]
  cases hb : belowInt64 d with
  | true =>
    have hlow := (belowInt64_iff h).1 hb
    have hle := mul_le_mul_of_nonneg_right n.le_toInt hU.le
    rw [if_pos (by simp), eq_comm, cmp_eq_gt_iff]
    omega
  | false =>
    cases ha : aboveInt64 d with
    | true =>
      have hhigh := (aboveInt64_iff h).1 ha
      have hlt := mul_lt_mul_of_pos_right n.toInt_lt hU
      rw [if_neg (by simp [h]), if_pos rfl, eq_comm, cmp_eq_lt_iff]
      omega
    | false =>
      obtain ⟨r, hsplit, hr, hr', -⟩ := units_split d
      rw [if_neg (by simp [h]), if_neg (by decide)]
      simp only [zero_partialCompare_sub, Option.getD_some, compareOfLessAndEq_eq_cmp,
        toInt_toInt64_trunc h hb ha, units_trunc]
      generalize d.units.tdiv unitsPerOne = q at hsplit ⊢
      rcases lt_trichotomy n.toInt q with hlt | heq | hgt
      · have hle := mul_le_mul_of_nonneg_right (Int.add_one_le_of_lt hlt) hU.le
        rw [(cmp_eq_lt_iff _ _).2 hlt, eq_comm, cmp_eq_lt_iff]
        linarith
      · -- The whole parts agree, and the rest that is cut off decides.
        rw [(cmp_eq_eq_iff _ _).2 heq, heq]
      · have hle := mul_le_mul_of_nonneg_right (Int.add_one_le_of_lt hgt) hU.le
        rw [(cmp_eq_gt_iff _ _).2 hgt, eq_comm, cmp_eq_gt_iff]
        linarith

/-- The place of an integer in the range of 64 bits, its upper end included, is that of its
units. -/
theorem finite_eq_ofUnits {z : ℤ} (hlow : -2 ^ 63 ≤ z) (hhigh : z ≤ 2 ^ 63) :
    Scale.finite z = .ofUnits (z * unitsPerOne) ∧
      z * (unitsPerOne : ℤ) ∈ Set.Icc (-(infinityUnits : ℤ)) infinityUnits := by
  have hU : (0 : ℤ) < unitsPerOne := Int.natCast_pos.2 unitsPerOne_pos
  have hlt := int64_lt_infinityUnits
  have hl := mul_le_mul_of_nonneg_right hlow hU.le
  have hh := mul_le_mul_of_nonneg_right hhigh hU.le
  have hq : ((z * unitsPerOne : ℤ) : ℚ) / unitsPerOne = z := by
    rw [Int.cast_mul, Int.cast_natCast, mul_div_cancel_right₀ _ (by exact_mod_cast hU.ne')]
  rw [Scale.ofUnits, if_neg (by omega), if_neg (by omega), hq]
  exact ⟨rfl, by omega, by omega⟩

theorem place_eq_zero_iff {d : Double} : d.place = .finite 0 ↔ d.isZero = true := by
  cases hnan : d.isNaN with
  | true =>
    refine iff_of_false ?_ fun hzero => ?_
    · rw [place_of_isNaN hnan]
      exact (Scale.nan_lt_finite 0).ne
    · rw [isNaN_eq_false_of_isZero hzero] at hnan
      cases hnan
  | false =>
    obtain ⟨hplace, hunits⟩ := place_eq hnan
    obtain ⟨hzero, hmem⟩ := finite_eq_ofUnits (z := 0) (by norm_num) (by norm_num)
    rw [zero_mul] at hzero hmem
    rw [Int.cast_zero] at hzero
    rw [hplace, hzero, Scale.ofUnits_strictMonoOn.injOn.eq_iff hunits hmem, isZero, beq_iff_eq,
      ← natAbs_units, Int.natAbs_eq_zero]

theorem belowInt64_iff_place {d : Double} (h : d.isNaN = false) :
    belowInt64 d = true ↔ d.place < .finite ((-2 ^ 63 : ℤ) : ℚ) := by
  obtain ⟨hp, hm⟩ := place_eq h
  obtain ⟨hl, hml⟩ := finite_eq_ofUnits (z := -2 ^ 63) (by decide) (by decide)
  rw [belowInt64_iff h, hp, hl, Scale.ofUnits_strictMonoOn.lt_iff_lt hm hml, neg_mul]

theorem aboveInt64_iff_place {d : Double} (h : d.isNaN = false) :
    aboveInt64 d = true ↔ .finite ((2 ^ 63 : ℤ) : ℚ) ≤ d.place := by
  obtain ⟨hp, hm⟩ := place_eq h
  obtain ⟨hu, hmu⟩ := finite_eq_ofUnits (z := 2 ^ 63) (by decide) (by decide)
  rw [aboveInt64_iff h, hp, hu, Scale.ofUnits_strictMonoOn.le_iff_le hmu hm]

/-- **Numbers compare as their places do**: integers and doubles of any pattern, without the loss of
a digit. -/
theorem compare_eq (x y : Number) : x.compare y = cmp x.place y.place := by
  have mixed (n : Int64) (d : Double) : compareDouble n d = cmp (Scale.finite n.toInt) d.place := by
    cases hn : d.isNaN with
    | true =>
      rw [compareDouble, if_pos (by simp [hn]), place_of_isNaN hn,
        (cmp_eq_gt_iff _ _).2 (Scale.nan_lt_finite _)]
    | false =>
      obtain ⟨hp, hm⟩ := place_eq hn
      obtain ⟨hi, hmi⟩ := finite_eq_ofUnits n.le_toInt n.toInt_lt.le
      rw [hp, hi, Scale.ofUnits_strictMonoOn.cmp_map_eq hmi hm, compareDouble_eq_units n hn]
  match x, y with
  | integer m, integer n =>
    have hmono : StrictMono fun z : ℤ => Scale.finite z := fun _ _ h =>
      Scale.finite_lt_finite.2 (Int.cast_lt.2 h)
    rw [compare, compareOfLessAndEq_eq_cmp, ← hmono.cmp_map_eq]
    rfl
  | integer n, double d => exact mixed n d
  | double d, integer n =>
    rw [compare, mixed, cmp_swap]
    rfl
  | double a, double b =>
    rw [compare, place, place]
    cases ha : a.isNaN <;> cases hb : b.isNaN
    · rw [partialCompare_eq ha hb, Option.getD_some]
    · rw [place_of_isNaN hb, (cmp_eq_gt_iff _ _).2 (nan_lt_place ha)]
    · rw [place_of_isNaN ha, (cmp_eq_lt_iff _ _).2 (nan_lt_place hb)]
    · rw [place_of_isNaN ha, place_of_isNaN hb, cmp_self_eq_eq]

/-- The whole part of a number, towards zero. -/
def whole (q : ℚ) : ℤ := if q < 0 then ⌈q⌉ else ⌊q⌋

theorem tdiv_eq_whole (d : Double) : d.units.tdiv unitsPerOne = whole d.rational := by
  have hU : (0 : ℚ) < unitsPerOne := Nat.cast_pos.2 unitsPerOne_pos
  have hsign : d.rational < 0 ↔ d.units < 0 := by
    rw [rational_eq, div_lt_iff₀ hU, zero_mul, Int.cast_lt_zero]
  rw [whole]
  split_ifs with h
  · have hneg : -d.rational = ((-d.units : ℤ) : ℚ) / (unitsPerOne : ℕ) := by
      rw [rational_eq, Int.cast_neg, neg_div]
    have hle : 0 ≤ -d.units := by
      have := hsign.1 h
      omega
    rw [← neg_neg d.rational, Int.ceil_neg, hneg, Rat.floor_intCast_div_natCast,
      ← Int.tdiv_eq_ediv_of_nonneg hle, Int.neg_tdiv, neg_neg]
  · have hle : 0 ≤ d.units := Int.not_lt.1 (mt hsign.2 h)
    rw [rational_eq, Rat.floor_intCast_div_natCast, Int.tdiv_eq_ediv_of_nonneg hle]

end Number

namespace Value

/-- The number that an integer or a double denotes. -/
inductive Denotes : Value → Scale → Prop
  | int (n : Int32) : Denotes (.int n) (.finite n.toInt)
  | long (n : Int64) : Denotes (.long n) (.finite n.toInt)
  | double (d : Double) : Denotes (.double d) d.place

theorem Denotes.number {a : Value} {x : Scale} (h : a.Denotes x) :
    ∃ n, a.number? = some n ∧ n.place = x := by
  cases h with
  | int n => exact ⟨_, rfl, by rw [Number.place, Int32.toInt_toInt64]⟩
  | long n => exact ⟨_, rfl, rfl⟩
  | double d => exact ⟨_, rfl, rfl⟩

theorem compare?_of_number {a b : Value} {x y : Number} (ha : a.number? = some x)
    (hb : b.number? = some y) : a.compare? b = some (cmp x.place y.place) := by
  simp only [compare?, ha, hb, Number.compare_eq]

/-- Whether equality looks into a value. -/
def isOpened : Value → Bool
  | array _ | document _ => true
  | _ => false

theorem equal_of_not_isOpened {a : Value} (b : Value) (ha : a.isOpened = false) :
    a.equal b = a.equalAtoms b ∧ b.equal a = b.equalAtoms a := by
  constructor
  · unfold equal
    split
    · cases ha
    · cases ha
    · rfl
  · unfold equal
    split
    · cases ha
    · cases ha
    · rfl

theorem not_isOpened_of_number {a : Value} {x : Number} (h : a.number? = some x) :
    a.isOpened = false := by
  cases a with
  | array _ | document _ => cases h
  | _ => rfl

theorem equal_of_number {a b : Value} {x y : Number} (ha : a.number? = some x)
    (hb : b.number? = some y) : a.equal b = true ↔ cmp x.place y.place = .eq := by
  rw [(equal_of_not_isOpened b (not_isOpened_of_number ha)).1]
  simp only [equalAtoms, ha, hb, Number.compare_eq, beq_iff_eq]

/-- **Numbers are compared exactly.** Integers and doubles are in the order of the numbers that they
denote, and equal just if that order says so; a double is only cast to an integer where its whole
part is one of 64 bits, and it is cast to its whole part. -/
theorem compare?_denoted {a b : Value} {x y : Scale} (ha : a.Denotes x) (hb : b.Denotes y) :
    a.compare? b = some (cmp x y) ∧ (a.equal b = true ↔ cmp x y = .eq) ∧
      ∀ d : Double, d.isNaN = false → Number.belowInt64 d = false → Number.aboveInt64 d = false →
        (.finite ((-2 ^ 63 : ℤ) : ℚ) ≤ d.place ∧ d.place < .finite ((2 ^ 63 : ℤ) : ℚ)) ∧
          d.trunc.toInt64.toInt = Number.whole d.rational := by
  obtain ⟨m, hm, rfl⟩ := ha.number
  obtain ⟨n, hn, rfl⟩ := hb.number
  refine ⟨compare?_of_number hm hn, equal_of_number hm hn,
    fun d hnan hbelow habove => ⟨⟨?_, ?_⟩, ?_⟩⟩
  · exact not_lt.1 (mt (Number.belowInt64_iff_place hnan).2 (by simp [hbelow]))
  · exact not_le.1 (mt (Number.aboveInt64_iff_place hnan).2 (by simp [habove]))
  · rw [Number.toInt_toInt64_trunc hnan hbelow habove, Number.tdiv_eq_whole]

/-- One more than the double `2 ^ 53` is an integer that no double is, and `-1.5` is cut to `-1`. -/
theorem compare?_denoted_two_pow_53 :
    (long 9007199254740993).compare? (double ⟨0x4340000000000000⟩) = some .gt ∧
      (long 9007199254740993).equal (double ⟨0x4340000000000000⟩) = false ∧
      (⟨0xbff8000000000000⟩ : Double).trunc.toInt64.toInt = -1 := by
  have hplace : (⟨0x4340000000000000⟩ : Double).place = .finite 9007199254740992 := by
    have hn : (⟨0x4340000000000000⟩ : Double).negative = false := by decide
    have he : (⟨0x4340000000000000⟩ : Double).exponentField = 1076 := by decide
    have hf : (⟨0x4340000000000000⟩ : Double).fraction = 0 := by decide
    have hq : (⟨0x4340000000000000⟩ : Double).rational = 9007199254740992 := by
      rw [Double.rational, hn, he, hf]
      norm_num
    rw [Double.place, if_neg (by decide), if_neg (by decide), hq]
  have hcut : (⟨0xbff8000000000000⟩ : Double).rational = -3 / 2 := by
    have hn : (⟨0xbff8000000000000⟩ : Double).negative = true := by decide
    have he : (⟨0xbff8000000000000⟩ : Double).exponentField = 1023 := by decide
    have hf : (⟨0xbff8000000000000⟩ : Double).fraction = 2251799813685248 := by decide
    rw [Double.rational, hn, he, hf]
    norm_num
  have hnan : (⟨0xbff8000000000000⟩ : Double).isNaN = false := by decide
  have hplace' : (⟨0xbff8000000000000⟩ : Double).place = .finite (-3 / 2) := by
    rw [Double.place, if_neg (by decide), if_neg (by decide), hcut]
  have hbelow : Number.belowInt64 ⟨0xbff8000000000000⟩ = false := by
    rw [Bool.eq_false_iff, Ne, Number.belowInt64_iff_place hnan, hplace', Scale.finite_lt_finite]
    norm_num
  have habove : Number.aboveInt64 ⟨0xbff8000000000000⟩ = false := by
    rw [Bool.eq_false_iff, Ne, Number.aboveInt64_iff_place hnan, hplace', not_le,
      Scale.finite_lt_finite]
    norm_num
  obtain ⟨horder, hequal, hwhole⟩ := compare?_denoted (.long 9007199254740993)
    (.double ⟨0x4340000000000000⟩)
  have hlong : (9007199254740993 : Int64).toInt = 9007199254740993 := by decide
  have hgt : cmp (Scale.finite ((9007199254740993 : Int64).toInt : ℚ))
      (⟨0x4340000000000000⟩ : Double).place = .gt := by
    rw [cmp_eq_gt_iff, hplace, hlong, Scale.finite_lt_finite]
    norm_num
  rw [hgt] at horder hequal
  refine ⟨horder, Bool.eq_false_iff.2 (mt hequal.1 (by decide)), ?_⟩
  rw [(hwhole _ hnan hbelow habove).2, hcut, Number.whole]
  norm_num

end Value

end DocStore
