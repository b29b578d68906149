import Mathlib.Data.Nat.ModEq
import Mathlib.Tactic.Common
import Mathlib.Tactic.NormNum
import DocStore.Number

/-!
# The bits of doubles

What the fields of a pattern say about its units. The magnitude of a double is compared with powers
of two through its exponent field, and cutting off its last bits is division of its units.

* `Double.fields_mk` takes a pattern apart that was put together from three fields.
* `Double.magnitude_lt` bounds a magnitude. An infinity, read as the others are, has
  `Double.infinityUnits`, which is more than every finite double and every integer of 64 bits has.
* `Double.units_trunc` says what taking off the fraction does to the units.
* `Double.ofRatio_fields` says that rounding keeps the sign, and makes nothing but zero a zero: the
  units are fine enough for every difference of doubles.

`Double.unitsPerOne` and `Double.infinityUnits` are powers too large to be written out; they are
worked with as `2 ^ n` for a variable `n` (`Double.unitsPerOne_eq`).
-/

namespace DocStore.Double

/-! ## The fields of a pattern -/

theorem fraction_lt (d : Double) : d.fraction < 2 ^ 52 := Nat.mod_lt _ (by decide)

theorem exponentField_lt (d : Double) : d.exponentField < 2048 := Nat.mod_lt _ (by decide)

/-- A pattern is its sign, its exponent field and its fraction. -/
theorem toNat_bits (d : Double) :
    d.bits.toNat = (if d.negative then 2 ^ 63 else 0) + d.exponentField * 2 ^ 52 + d.fraction := by
  have hlt : d.bits.toNat < 2 ^ 64 := d.bits.toNat_lt
  simp only [negative, exponentField, fraction, decide_eq_true_eq, Nat.pow_eq]
  norm_num at hlt ⊢
  split_ifs <;> omega

/-- The fields of a pattern that is put together from a sign, an exponent field and a fraction. -/
theorem fields_mk {s : Bool} {e f : Nat} (he : e < 2048) (hf : f < 2 ^ 52) {d : Double}
    (hd : d = ⟨UInt64.ofNat ((if s then 2 ^ 63 else 0) + e * 2 ^ 52 + f)⟩) :
    d.negative = s ∧ d.exponentField = e ∧ d.fraction = f := by
  have hlt : (if s then 2 ^ 63 else 0) + e * 2 ^ 52 + f < 2 ^ 64 := by
    cases s <;> simp <;> omega
  have hn : d.bits.toNat = (if s then 2 ^ 63 else 0) + e * 2 ^ 52 + f := by
    rw [hd, UInt64.toNat_ofNat_of_lt' hlt]
  simp only [negative, exponentField, fraction, Nat.pow_eq, hn]
  norm_num at hf ⊢
  cases s <;> simp <;> omega

/-! ## Units -/

theorem unitsPerOne_eq {n : Nat} (h : n = 1074) : unitsPerOne = 2 ^ n := by
  unfold unitsPerOne
  rw [← h, Nat.pow_eq]

theorem unitsPerOne_pos : 0 < unitsPerOne := by
  obtain ⟨n, hn⟩ : ∃ n, n = 1074 := ⟨_, rfl⟩
  rw [unitsPerOne_eq hn]
  exact Nat.two_pow_pos n

theorem two_pow_le_unitsPerOne {n : Nat} (h : n ≤ 1074) : 2 ^ n ≤ unitsPerOne := by
  obtain ⟨k, hk⟩ := Nat.exists_eq_add_of_le h
  rw [unitsPerOne_eq hk.symm]
  exact Nat.pow_le_pow_right (by decide) (Nat.le_add_right n k)

theorem unitsPerOne_dvd_two_pow {n : Nat} (h : 1074 ≤ n) : unitsPerOne ∣ 2 ^ n := by
  obtain ⟨m, hm⟩ : ∃ m, m = 1074 := ⟨_, rfl⟩
  rw [unitsPerOne_eq hm]
  exact Nat.pow_dvd_pow 2 (hm ▸ h)

/-- The magnitude, in units, that the pattern of an infinity gives. -/
def infinityUnits : Nat := Nat.pow 2 2098

theorem infinityUnits_eq {n : Nat} (h : n = 2098) : infinityUnits = 2 ^ n := by
  unfold infinityUnits
  rw [← h, Nat.pow_eq]

theorem two_pow_le_infinityUnits {n : Nat} (h : n ≤ 2098) : 2 ^ n ≤ infinityUnits := by
  obtain ⟨k, hk⟩ := Nat.exists_eq_add_of_le h
  rw [infinityUnits_eq hk.symm]
  exact Nat.pow_le_pow_right (by decide) (Nat.le_add_right n k)

/-- The integers of 64 bits lie between the infinities. -/
theorem int64_lt_infinityUnits : 2 ^ 63 * unitsPerOne < infinityUnits := by
  obtain ⟨n, hn⟩ : ∃ n, n = 1074 := ⟨_, rfl⟩
  calc 2 ^ 63 * unitsPerOne = 2 ^ (63 + n) := by rw [unitsPerOne_eq hn, Nat.pow_add]
    _ < 2 ^ (63 + n + 1) := Nat.pow_lt_pow_right (by decide) (Nat.lt_succ_self _)
    _ ≤ infinityUnits := two_pow_le_infinityUnits (by omega)

theorem magnitude_of_exponentField_pos {d : Double} (h : 0 < d.exponentField) :
    d.magnitude = (2 ^ 52 + d.fraction) * 2 ^ (d.exponentField - 1) := by
  rw [magnitude, if_neg (by omega), Nat.pow_eq, Nat.pow_eq]

/-- A magnitude is below twice the power of two that the exponent field stands for. -/
theorem magnitude_lt {d : Double} {e : Nat} (h : d.exponentField ≤ e) (he : 0 < e) :
    d.magnitude < 2 ^ (52 + e) := by
  have hf := d.fraction_lt
  by_cases h0 : d.exponentField = 0
  · rw [magnitude, if_pos h0]
    exact hf.trans_le (Nat.pow_le_pow_right (by decide) (by omega))
  · rw [magnitude_of_exponentField_pos (by omega)]
    calc (2 ^ 52 + d.fraction) * 2 ^ (d.exponentField - 1)
        < 2 ^ 53 * 2 ^ (d.exponentField - 1) :=
          Nat.mul_lt_mul_of_pos_right (by omega) (Nat.two_pow_pos _)
      _ = 2 ^ (53 + (d.exponentField - 1)) := (Nat.pow_add ..).symm
      _ ≤ 2 ^ (52 + e) := Nat.pow_le_pow_right (by decide) (by omega)

theorem magnitude_of_isInfinite {d : Double} (h : d.isInfinite = true) :
    d.magnitude = infinityUnits := by
  obtain ⟨he, hf⟩ : d.exponentField = 2047 ∧ d.fraction = 0 := by simpa [isInfinite] using h
  rw [magnitude_of_exponentField_pos (by omega), hf, Nat.add_zero, ← Nat.pow_add]
  exact (infinityUnits_eq (by omega)).symm

theorem exponentField_lt_of_isFinite {d : Double} (hn : d.isNaN = false)
    (hi : d.isInfinite = false) : d.exponentField < 2047 := by
  have h := d.exponentField_lt
  by_contra hge
  have he : d.exponentField = 2047 := by omega
  by_cases hf : d.fraction = 0
  · simp [isInfinite, he, hf] at hi
  · simp [isNaN, he, hf] at hn

theorem magnitude_lt_of_isFinite {d : Double} (hn : d.isNaN = false) (hi : d.isInfinite = false) :
    d.magnitude < infinityUnits := by
  have he := exponentField_lt_of_isFinite hn hi
  exact (magnitude_lt (Nat.le_of_lt_succ he) (by decide)).trans_le
    (two_pow_le_infinityUnits (by decide))

theorem magnitude_le_of_not_isNaN {e : Double} (h : e.isNaN = false) :
    e.magnitude ≤ infinityUnits := by
  cases hi : e.isInfinite with
  | true => exact (magnitude_of_isInfinite hi).le
  | false => exact (magnitude_lt_of_isFinite h hi).le

@[simp] theorem natAbs_units (d : Double) : d.units.natAbs = d.magnitude := by
  rw [units]
  split
  · rw [Int.natAbs_neg, Int.natAbs_natCast]
  · rw [Int.natAbs_natCast]

/-! ## The whole part -/

theorem magnitude_lt_unitsPerOne {d : Double} (h : d.exponentField < 1023) :
    d.magnitude < unitsPerOne :=
  (magnitude_lt (Nat.le_of_lt_succ h) (by decide)).trans_le (two_pow_le_unitsPerOne (by decide))

theorem unitsPerOne_dvd_magnitude {d : Double} (h : 1075 ≤ d.exponentField) :
    unitsPerOne ∣ d.magnitude := by
  rw [magnitude_of_exponentField_pos (by omega)]
  exact Dvd.dvd.mul_left (unitsPerOne_dvd_two_pow (by omega)) _

/-- Where the exponent field leaves a part of the fraction before the point and a part after it, the
former stays. -/
theorem fields_trunc {d : Double} (hlow : 1023 ≤ d.exponentField) (hhigh : d.exponentField < 1075) :
    d.trunc.negative = d.negative ∧ d.trunc.exponentField = d.exponentField ∧
      d.trunc.fraction =
        d.fraction / 2 ^ (1075 - d.exponentField) * 2 ^ (1075 - d.exponentField) := by
  have hhead : 2 ^ (1075 - d.exponentField) ∣
      (if d.negative then 2 ^ 63 else 0) + d.exponentField * 2 ^ 52 := by
    refine Nat.dvd_add ?_ (Dvd.dvd.mul_left (Nat.pow_dvd_pow 2 (by omega)) _)
    split
    · exact Nat.pow_dvd_pow 2 (by omega)
    · exact Nat.dvd_zero _
  refine fields_mk d.exponentField_lt ((Nat.div_mul_le_self _ _).trans_lt d.fraction_lt) ?_
  rw [trunc, if_neg (by omega), if_neg (by omega)]
  simp only [Nat.pow_eq]
  rw [toNat_bits, Nat.add_div_of_dvd_right hhead, Nat.add_mul, Nat.div_mul_cancel hhead]

@[simp] theorem magnitude_trunc (d : Double) :
    d.trunc.magnitude = d.magnitude / unitsPerOne * unitsPerOne := by
  rcases Nat.lt_or_ge d.exponentField 1023 with hlow | hlow
  · have hzero : d.trunc.magnitude = 0 := by
      rw [magnitude_eq_zero_iff, trunc, if_pos hlow]
      cases d.negative
      · exact .inl rfl
      · exact .inr rfl
    rw [hzero, Nat.div_eq_of_lt (magnitude_lt_unitsPerOne hlow), Nat.zero_mul]
  rcases Nat.lt_or_ge d.exponentField 1075 with hhigh | hhigh
  · obtain ⟨-, he, hf⟩ := fields_trunc hlow hhigh
    have hone : unitsPerOne = 2 ^ (1075 - d.exponentField) * 2 ^ (d.exponentField - 1) := by
      rw [← Nat.pow_add]
      exact unitsPerOne_eq (by omega)
    have hlead : 2 ^ (1075 - d.exponentField) ∣ 2 ^ 52 := Nat.pow_dvd_pow 2 (by omega)
    rw [magnitude_of_exponentField_pos (by omega), magnitude_of_exponentField_pos (by omega), he,
      hf, hone, Nat.mul_div_mul_right _ _ (Nat.two_pow_pos _), Nat.add_div_of_dvd_right hlead,
      ← Nat.mul_assoc, Nat.add_mul (2 ^ 52 / _), Nat.div_mul_cancel hlead]
  · rw [Nat.div_mul_cancel (unitsPerOne_dvd_magnitude hhigh), trunc, if_neg (by omega),
      if_pos hhigh]

@[simp] theorem negative_trunc (d : Double) : d.trunc.negative = d.negative := by
  rcases Nat.lt_or_ge d.exponentField 1023 with hlow | hlow
  · rw [trunc, if_pos hlow]
    cases d.negative <;> rfl
  rcases Nat.lt_or_ge d.exponentField 1075 with hhigh | hhigh
  · exact (fields_trunc hlow hhigh).1
  · rw [trunc, if_neg (by omega), if_pos hhigh]

/-- Taking the fraction off is division by one. -/
theorem units_trunc (d : Double) : d.trunc.units = d.units.tdiv unitsPerOne * unitsPerOne := by
  rw [units, units, negative_trunc, magnitude_trunc, Int.natCast_mul, Int.natCast_ediv]
  split
  · rw [Int.neg_tdiv, Int.natCast_tdiv_eq_ediv, Int.neg_mul]
  · rw [Int.natCast_tdiv_eq_ediv]

theorem isNaN_trunc {d : Double} (h : d.exponentField < 2047) : d.trunc.isNaN = false := by
  have he : d.trunc.exponentField < 2047 := by
    rcases Nat.lt_or_ge d.exponentField 1023 with hlow | hlow
    · rw [trunc, if_pos hlow]
      cases d.negative <;> decide
    rcases Nat.lt_or_ge d.exponentField 1075 with hhigh | hhigh
    · rwa [(fields_trunc hlow hhigh).2.1]
    · rwa [trunc, if_neg (by omega), if_pos hhigh]
  simp [isNaN, he.ne]

/-! ## Signs of rounded numbers -/

theorem magnitude_eq_zero_iff_fields {d : Double} :
    d.magnitude = 0 ↔ d.exponentField = 0 ∧ d.fraction = 0 := by
  by_cases he : d.exponentField = 0
  · rw [magnitude, if_pos he]
    simp [he]
  · have hpos := Nat.two_pow_pos (d.exponentField - 1)
    rw [magnitude_of_exponentField_pos (by omega), Nat.mul_eq_zero]
    omega

/-- The fields of what is made of a mantissa. -/
theorem ofMantissa_bits (s : Bool) (mantissa shift : Nat) :
    (ofMantissa s mantissa shift).negative = s ∧
      (ofMantissa s mantissa shift).exponentField =
        min (shift * 2 ^ 52 + mantissa) (2047 * 2 ^ 52) / 2 ^ 52 ∧
      (ofMantissa s mantissa shift).fraction =
        min (shift * 2 ^ 52 + mantissa) (2047 * 2 ^ 52) % 2 ^ 52 := by
  refine fields_mk (by omega) (Nat.mod_lt _ (by decide)) ?_
  rw [Nat.add_assoc, Nat.div_add_mod']
  rfl

/-- What is made of a mantissa is no NaN, has the sign asked for, and is zero just if the mantissa
and the shift are. -/
theorem ofMantissa_fields (s : Bool) (mantissa shift : Nat) :
    (ofMantissa s mantissa shift).isNaN = false ∧ (ofMantissa s mantissa shift).negative = s ∧
      ((ofMantissa s mantissa shift).magnitude = 0 ↔ shift = 0 ∧ mantissa = 0) := by
  obtain ⟨hneg, he, hf⟩ := ofMantissa_bits s mantissa shift
  set m := min (shift * 2 ^ 52 + mantissa) (2047 * 2 ^ 52) with hm
  refine ⟨?_, hneg, ?_⟩
  · rw [isNaN, he, hf, Bool.and_eq_false_iff, beq_eq_false_iff_ne, bne_eq_false_iff_eq]
    omega
  · rw [magnitude_eq_zero_iff_fields, he, hf]
    omega

/-- A number of units rounds to a double of its sign, and just zero to a zero. -/
theorem ofRatio_fields (s : Bool) (n : Nat) :
    (ofRatio s n unitsPerOne).isNaN = false ∧ (ofRatio s n unitsPerOne).negative = s ∧
      ((ofRatio s n unitsPerOne).magnitude = 0 ↔ n = 0) := by
  have hU := unitsPerOne_pos
  rw [ofRatio]
  -- The size of a unit is of no matter here, and without its value nothing tries to compute it.
  generalize unitsPerOne = U at hU ⊢
  simp only [Nat.mul_div_cancel _ hU, Nat.pow_eq]
  obtain ⟨hnan, hneg, hzero⟩ := ofMantissa_fields s
    (roundDiv (n * U) (U * 2 ^ (n.log2 - 52))) (n.log2 - 52)
  refine ⟨hnan, hneg, hzero.trans ⟨fun ⟨hs, hm⟩ => ?_, ?_⟩⟩
  · -- Rounding does not go below the whole part of the quotient, which is the number itself.
    have hle := le_roundDiv (n * U) (U * 2 ^ (n.log2 - 52))
    rw [hm, hs, Nat.pow_zero, Nat.mul_one, Nat.mul_div_cancel _ hU] at hle
    exact Nat.le_zero.1 hle
  · rintro rfl
    rw [Nat.zero_mul, roundDiv]
    simp [hU]

end DocStore.Double
