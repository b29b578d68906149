import DocStore.Proofs.Numbers

/-!
# The nearest double

What rounding a quotient to a double means, told without the way in which it is done. The doubles
are compared by their distance from the number, and of two that are equally near the one with an
even last place is taken.

* `Preferred` says which of two candidates stands for a number. `roundDiv_preferred` says that it is
  the rounded quotient among the natural numbers.
* `Double.magnitude_grid` says that a double is below the numbers of a binade or one of its
  multiples of a last place; with it `Double.magnitude_ofRatio_preferred` compares magnitudes.
* `Double.Nearest` is the relation of a number and its nearest double. `Double.Nearest.unique`,
  `Double.Nearest.self` and `Double.Nearest.mono` are what it is used for.
* `Double.nearest_ofRatio` is the main statement: rounding a quotient gives its nearest double.
-/

namespace DocStore

/-! ## Candidates for a number -/

/-- Of two candidates `a` and `b` for a number, with last places `i` and `j`, the first is
preferred: it is nearer, or equally near and even where the second is odd. -/
def Preferred (x a b : ℚ) (i j : ℕ) : Prop :=
  |x - a| < |x - b| ∨ |x - a| = |x - b| ∧ i % 2 = 0 ∧ j % 2 = 1

namespace Preferred

variable {x a b c : ℚ} {i j : ℕ}

theorem le (h : Preferred x a b i j) : |x - a| ≤ |x - b| := h.elim (·.le) (·.1.le)

theorem asymm (h : Preferred x a b i j) : ¬ Preferred x b a j i := by
  rintro (hlt | ⟨heq, -, hodd⟩)
  · exact hlt.not_ge h.le
  · rcases h with hlt | ⟨-, heven, -⟩
    · exact hlt.ne' heq
    · omega

/-- A candidate that is farther away is no more preferred. -/
theorem trans_le (h : Preferred x a b i j) (hle : |x - b| ≤ |x - c|) : Preferred x a c i j := by
  rcases h with hlt | ⟨heq, hparity⟩
  · exact .inl (hlt.trans_le hle)
  · exact (heq.trans_le hle).lt_or_eq.imp_right fun hsame => ⟨hsame, hparity⟩

end Preferred

/-! ## Rounded quotients -/

/-- A quotient is its whole part and a rest, of which rounding looks at the double. -/
theorem div_eq_add_rest (num : ℕ) {den : ℕ} (h : 0 < den) :
    ∃ r : ℚ, (num : ℚ) / den = (num / den : ℕ) + r ∧ 0 ≤ r ∧ r < 1 ∧
      (2 * (num % den) < den ↔ r < 1 / 2) ∧ (den < 2 * (num % den) ↔ 1 / 2 < r) := by
  have hden : (0 : ℚ) < den := Nat.cast_pos.2 h
  refine ⟨((num % den : ℕ) : ℚ) / den, ?_, by positivity, ?_, ?_, ?_⟩
  · rw [eq_comm, ← eq_sub_iff_add_eq', div_sub' hden.ne', div_left_inj' hden.ne',
      eq_sub_iff_add_eq]
    exact_mod_cast Nat.mod_add_div num den
  · exact (div_lt_one hden).2 (Nat.cast_lt.2 (Nat.mod_lt _ h))
  · rw [div_lt_iff₀ hden, ← Nat.cast_lt (α := ℚ), Nat.cast_mul, Nat.cast_ofNat]
    constructor <;> intro _ <;> linarith
  · rw [lt_div_iff₀ hden, ← Nat.cast_lt (α := ℚ), Nat.cast_mul, Nat.cast_ofNat]
    constructor <;> intro _ <;> linarith

/-- A rounded quotient is off by at most a half, and by a half only where it is even. -/
theorem abs_sub_roundDiv_le (num : ℕ) {den : ℕ} (h : 0 < den) :
    |(num : ℚ) / den - roundDiv num den| ≤ 1 / 2 ∧
      (|(num : ℚ) / den - roundDiv num den| = 1 / 2 → roundDiv num den % 2 = 0) := by
  obtain ⟨r, hr, hnonneg, hlt, hlow, hhigh⟩ := div_eq_add_rest num h
  rw [hr]
  simp only [roundDiv, hlow, hhigh]
  split_ifs with h1 h2
  · rw [add_sub_cancel_left, abs_of_nonneg hnonneg]
    exact ⟨h1.le, fun heq => absurd heq h1.ne⟩
  · have habs : |((num / den : ℕ) : ℚ) + r - (num / den + 1 : ℕ)| = 1 - r := by
      rw [Nat.cast_succ, add_sub_add_left_eq_sub, abs_sub_comm, abs_of_pos (sub_pos.2 hlt)]
    rw [habs]
    exact ⟨by linarith, fun heq => by linarith⟩
  · have hhalf : r = 1 / 2 := le_antisymm (not_lt.1 h2) (not_lt.1 h1)
    refine ⟨?_, fun _ => by omega⟩
    rw [Nat.cast_add, add_sub_add_left_eq_sub, hhalf]
    rcases Nat.mod_two_eq_zero_or_one (num / den) with h0 | h0 <;> rw [h0] <;> norm_num

/-- The rounded quotient is preferred to any other natural number. -/
theorem roundDiv_preferred (num : ℕ) {den : ℕ} (h : 0 < den) {k : ℕ}
    (hk : k ≠ roundDiv num den) :
    Preferred ((num : ℚ) / den) (roundDiv num den) k (roundDiv num den) k := by
  obtain ⟨hle, heven⟩ := abs_sub_roundDiv_le num h
  generalize (num : ℚ) / den = x at *
  generalize roundDiv num den = m at *
  have hapart : (1 : ℚ) ≤ |(k : ℚ) - m| := by
    have : (1 : ℤ) ≤ |(k : ℤ) - m| := Int.one_le_abs (sub_ne_zero.2 (by exact_mod_cast hk))
    exact_mod_cast this
  have htriangle : |(k : ℚ) - m| ≤ |x - m| + |x - k| := by
    rw [abs_sub_comm x k, add_comm]
    exact abs_sub_le _ _ _
  rcases hle.lt_or_eq with hlt | heq
  · exact .inl (by linarith)
  · rcases lt_or_eq_of_le (show 1 / 2 ≤ |x - k| by linarith) with hfar | hsame
    · exact .inl (heq.trans_lt hfar)
    · -- Both are a half away, so that they follow one another.
      have hnext : |(k : ℤ) - m| ≤ 1 := by
        have : |(k : ℚ) - m| ≤ 1 := by linarith
        exact_mod_cast this
      have hm := heven heq
      have hbounds := abs_le.1 hnext
      exact .inr ⟨heq.trans hsame, hm, by omega⟩

namespace Double

/-! ## Magnitudes -/

/-- A mantissa stands for itself times the power of its shift. -/
theorem magnitude_ofMantissa (s : Bool) {mantissa shift : ℕ} (hm : mantissa ≤ 2 ^ 53)
    (hs : shift = 0 ∨ 2 ^ 52 ≤ mantissa) (hfit : shift * 2 ^ 52 + mantissa ≤ 2047 * 2 ^ 52) :
    (ofMantissa s mantissa shift).magnitude = mantissa * 2 ^ shift ∧
      (ofMantissa s mantissa shift).fraction % 2 = mantissa % 2 := by
  obtain ⟨-, he, hf⟩ := ofMantissa_bits s mantissa shift
  rw [Nat.min_eq_left hfit] at he hf
  refine ⟨?_, by omega⟩
  generalize ofMantissa s mantissa shift = d at *
  rcases Nat.lt_or_ge mantissa (2 ^ 52) with hlow | hlow
  · obtain rfl := hs.resolve_right (Nat.not_le.2 hlow)
    rw [magnitude, if_pos (by omega), hf]
    omega
  rcases Nat.lt_or_ge mantissa (2 ^ 53) with hhigh | hhigh
  · have he' : d.exponentField = shift + 1 := by omega
    have hf' : 2 ^ 52 + d.fraction = mantissa := by omega
    rw [magnitude_of_exponentField_pos (by omega), he', hf', Nat.add_sub_cancel]
  · obtain rfl := Nat.le_antisymm hm hhigh
    have he' : d.exponentField = shift + 1 + 1 := by omega
    have hf' : d.fraction = 0 := by omega
    rw [magnitude_of_exponentField_pos (by omega), he', hf', Nat.add_sub_cancel, Nat.pow_succ]
    omega

/-- Beyond the largest double stands an infinity. -/
theorem magnitude_ofMantissa_of_le (s : Bool) {mantissa shift : ℕ}
    (h : 2047 * 2 ^ 52 ≤ shift * 2 ^ 52 + mantissa) :
    (ofMantissa s mantissa shift).magnitude = infinityUnits := by
  obtain ⟨-, he, hf⟩ := ofMantissa_bits s mantissa shift
  rw [Nat.min_eq_right h] at he hf
  have he' : (ofMantissa s mantissa shift).exponentField = 2047 := he
  have hf' : (ofMantissa s mantissa shift).fraction = 0 := hf
  exact magnitude_of_isInfinite (by simp [isInfinite, he', hf'])

/-- A magnitude is below the least one of a mantissa of 53 bits, or a multiple of its last place,
odd only where the fraction is. -/
theorem magnitude_grid (e : Double) (n : ℕ) :
    0 < n ∧ e.magnitude < 2 ^ 52 * 2 ^ n ∨
      ∃ k, e.magnitude = k * 2 ^ n ∧ (k % 2 = 1 → e.fraction % 2 = 1) := by
  rcases Nat.lt_or_ge n e.exponentField with hlt | hle
  · refine .inr ⟨(2 ^ 52 + e.fraction) * 2 ^ (e.exponentField - 1 - n), ?_, fun hodd => ?_⟩
    · rw [magnitude_of_exponentField_pos (by omega), Nat.mul_assoc, ← Nat.pow_add,
        Nat.sub_add_cancel (by omega)]
    · have hsum := (Nat.odd_mul.1 (Nat.odd_iff.2 hodd)).1
      rw [Nat.odd_iff] at hsum
      omega
  rcases Nat.eq_zero_or_pos n with rfl | hpos
  · refine .inr ⟨e.fraction, ?_, id⟩
    rw [magnitude, if_pos (by omega), Nat.pow_zero, Nat.mul_one]
  · rw [← Nat.pow_add]
    exact .inl ⟨hpos, magnitude_lt hle hpos⟩

/-- The double of a quotient is made of a mantissa of 53 bits. -/
theorem ofRatio_mantissa (num den : ℕ) :
    let n := (num * unitsPerOne / den).log2 - 52
    let m := roundDiv (num * unitsPerOne) (den * 2 ^ n)
    m ≤ 2 ^ 53 ∧ (n = 0 ∨ 2 ^ 52 ≤ m ∧ den * (2 ^ 52 * 2 ^ n) ≤ num * unitsPerOne) := by
  intro n m
  obtain ⟨t, ht⟩ : ∃ t, t = num * unitsPerOne := ⟨_, rfl⟩
  have hn : n = (t / den).log2 - 52 := by rw [ht]
  have hm : m = roundDiv t (den * 2 ^ n) := by rw [ht]
  rw [← ht]
  clear_value n m
  have hlow := le_roundDiv t (den * 2 ^ n)
  have hhigh := roundDiv_le t (den * 2 ^ n)
  have hquot : t / (den * 2 ^ n) = t / den / 2 ^ n := (Nat.div_div_eq_div_mul ..).symm
  have hlt : t / den / 2 ^ n < 2 ^ 53 := by
    rw [Nat.div_lt_iff_lt_mul (Nat.two_pow_pos n), ← Nat.pow_add]
    exact Nat.lt_log2_self.trans_le (Nat.pow_le_pow_right (by decide) (by omega))
  rw [← hm, hquot] at hlow hhigh
  refine ⟨by omega, ?_⟩
  rcases Nat.eq_zero_or_pos n with h0 | hpos
  · exact .inl h0
  · have hne : t / den ≠ 0 := by
      intro h0
      rw [h0] at hn
      simp at hn
      omega
    have hle : 2 ^ 52 * 2 ^ n ≤ t / den := by
      rw [← Nat.pow_add]
      exact (Nat.pow_le_pow_right (by decide) (by omega)).trans (Nat.log2_self_le hne)
    refine .inr ⟨?_, (Nat.mul_le_mul_left den hle).trans (Nat.mul_div_le t den)⟩
    exact ((Nat.le_div_iff_mul_le (Nat.two_pow_pos n)).2 hle).trans hlow

/-- Distances from a number of units are those from a mantissa, times the power of the shift. -/
theorem abs_sub_mul_two_pow (x : ℚ) (n k : ℕ) :
    |x - (k * 2 ^ n : ℕ)| = |x / 2 ^ n - k| * 2 ^ n := by
  have htwo : (0 : ℚ) < 2 ^ n := by positivity
  rw [← abs_of_pos htwo, ← abs_mul, abs_of_pos htwo, sub_mul, div_mul_cancel₀ _ htwo.ne',
    Nat.cast_mul, Nat.cast_pow, Nat.cast_ofNat]

section

variable {x : ℚ} {n m : ℕ} {e : Double}

/-- A mantissa that is preferred to all others makes a magnitude that is. -/
theorem magnitude_preferred_of_fit (s : Bool) (hm : m ≤ 2 ^ 53) (hshift : n = 0 ∨ 2 ^ 52 ≤ m)
    (hfit : n * 2 ^ 52 + m ≤ 2047 * 2 ^ 52) (hlead : 0 < n → ((2 ^ 52 * 2 ^ n : ℕ) : ℚ) ≤ x)
    (hpreferred : ∀ k, k ≠ m → Preferred (x / 2 ^ n) m k m k)
    (hne : e.magnitude ≠ (ofMantissa s m n).magnitude) :
    Preferred x (ofMantissa s m n).magnitude e.magnitude (ofMantissa s m n).fraction
      e.fraction := by
  have htwo : (0 : ℚ) < 2 ^ n := by positivity
  obtain ⟨hval, hparity⟩ := magnitude_ofMantissa s hm hshift hfit
  rw [hval] at hne
  rw [Preferred, hval, hparity]
  rcases magnitude_grid e n with ⟨hpos, hlow⟩ | ⟨k, hk, hodd⟩
  · -- The least mantissa is between this magnitude and the number.
    have hbest : |x - (m * 2 ^ n : ℕ)| ≤ |x - (2 ^ 52 * 2 ^ n : ℕ)| := by
      rw [abs_sub_mul_two_pow, abs_sub_mul_two_pow]
      refine mul_le_mul_of_nonneg_right ?_ htwo.le
      by_cases hkm : 2 ^ 52 = m
      · rw [hkm]
      · exact (hpreferred _ hkm).le
    have hlow' : (e.magnitude : ℚ) < (2 ^ 52 * 2 ^ n : ℕ) := Nat.cast_lt.2 hlow
    have hx := hlead hpos
    rw [abs_of_nonneg (sub_nonneg.2 hx)] at hbest
    rw [abs_of_pos (sub_pos.2 (hlow'.trans_le hx))]
    exact .inl (by linarith only [hbest, hlow'])
  · have hkm : k ≠ m := by
      rintro rfl
      exact hne hk
    rw [hk, abs_sub_mul_two_pow, abs_sub_mul_two_pow]
    rcases hpreferred k hkm with hfar | ⟨hsame, heven, hk⟩
    · exact .inl (mul_lt_mul_of_pos_right hfar htwo)
    · exact .inr ⟨by rw [hsame], heven, hodd hk⟩

/-- An infinity is nearest beyond all doubles. -/
theorem magnitude_nearest_of_over (s : Bool) (hm : m ≤ 2 ^ 53)
    (hover : 2047 * 2 ^ 52 < n * 2 ^ 52 + m) (hlead : 0 < n → ((2 ^ 52 * 2 ^ n : ℕ) : ℚ) ≤ x)
    (he : e.isNaN = false) (hne : e.magnitude ≠ (ofMantissa s m n).magnitude) :
    |x - (ofMantissa s m n).magnitude| < |x - e.magnitude| := by
  rw [magnitude_ofMantissa_of_le s hover.le] at hne ⊢
  have hinfinity : infinityUnits ≤ 2 ^ 52 * 2 ^ n := by
    obtain ⟨b, hb⟩ : ∃ b, b = 2098 := ⟨_, rfl⟩
    rw [infinityUnits_eq hb, ← Nat.pow_add]
    exact Nat.pow_le_pow_right (by decide) (by omega)
  have hx : (infinityUnits : ℚ) ≤ x := (Nat.cast_le.2 hinfinity).trans (hlead (by omega))
  have hlt : (e.magnitude : ℚ) < infinityUnits :=
    Nat.cast_lt.2 (lt_of_le_of_ne (magnitude_le_of_not_isNaN he) hne)
  rw [abs_of_nonneg (sub_nonneg.2 hx), abs_of_pos (sub_pos.2 (hlt.trans_le hx))]
  exact sub_lt_sub_left hlt x

end

/-- The magnitude of the double of a quotient is preferred to every other. -/
theorem magnitude_ofRatio_preferred (s : Bool) (num : ℕ) {den : ℕ} (h : 0 < den) {e : Double}
    (he : e.isNaN = false) (hne : e.magnitude ≠ (ofRatio s num den).magnitude) :
    Preferred (((num * unitsPerOne : ℕ) : ℚ) / den) (ofRatio s num den).magnitude e.magnitude
      (ofRatio s num den).fraction e.fraction := by
  obtain ⟨hm, hshift⟩ := ofRatio_mantissa num den
  rw [ofRatio, Nat.pow_eq] at hne ⊢
  -- From here on the number of units in one is of no matter.
  generalize num * unitsPerOne = t at *
  generalize (t / den).log2 - 52 = n at *
  have hquot : (t : ℚ) / den / 2 ^ n = (t : ℚ) / (den * 2 ^ n : ℕ) := by
    rw [div_div, Nat.cast_mul, Nat.cast_pow, Nat.cast_ofNat]
  have hpreferred : ∀ k, k ≠ roundDiv t (den * 2 ^ n) → Preferred ((t : ℚ) / den / 2 ^ n)
      (roundDiv t (den * 2 ^ n)) k (roundDiv t (den * 2 ^ n)) k := by
    intro k hk
    rw [hquot]
    exact roundDiv_preferred t (Nat.mul_pos h (Nat.two_pow_pos n)) hk
  have hlead : 0 < n → ((2 ^ 52 * 2 ^ n : ℕ) : ℚ) ≤ (t : ℚ) / den := by
    intro hpos
    rw [le_div_iff₀ (Nat.cast_pos.2 h), mul_comm]
    exact_mod_cast (hshift.resolve_left hpos.ne').2
  generalize roundDiv t (den * 2 ^ n) = m at *
  rcases Nat.lt_or_ge (2047 * 2 ^ 52) (n * 2 ^ 52 + m) with hover | hfit
  · exact .inl (magnitude_nearest_of_over s hm hover hlead he hne)
  · exact magnitude_preferred_of_fit s hm (hshift.imp_right (·.1)) hfit hlead hpreferred hne

/-! ## The nearest double -/

/-- A double is the nearest one to a number: it is preferred to every double of another value. An
infinity counts as `2 ^ 1024` with its sign, where the next double would stand. -/
structure Nearest (q : ℚ) (d : Double) : Prop where
  isNumber : d.isNaN = false
  preferred : ∀ e : Double, e.isNaN = false → e.rational ≠ d.rational →
    Preferred q d.rational e.rational d.fraction e.fraction

namespace Nearest

variable {p q : ℚ} {d e : Double}

/-- The nearest double is one, but for the sign of a zero. -/
theorem unique (hd : Nearest q d) (he : Nearest q e) : d.rational = e.rational := by
  by_contra hne
  exact (hd.preferred e he.isNumber (Ne.symm hne)).asymm (he.preferred d hd.isNumber hne)

/-- A double is the nearest one to the number that it denotes. -/
theorem self (h : d.isNaN = false) : Nearest d.rational d := by
  refine ⟨h, fun e _ hne => .inl ?_⟩
  rw [sub_self, abs_zero, abs_pos]
  exact sub_ne_zero.2 (Ne.symm hne)

/-- Nearest doubles are in the order of their numbers. -/
theorem mono (hd : Nearest p d) (he : Nearest q e) (h : p ≤ q) : d.rational ≤ e.rational := by
  rcases h.eq_or_lt with rfl | hlt
  · exact (hd.unique he).le
  by_contra hgt
  rw [not_le] at hgt
  have hnear := (hd.preferred e he.isNumber hgt.ne).le
  have hnear' := (he.preferred d hd.isNumber hgt.ne').le
  rcases abs_cases (p - d.rational) with h1 | h1 <;>
    rcases abs_cases (p - e.rational) with h2 | h2 <;>
    rcases abs_cases (q - d.rational) with h3 | h3 <;>
    rcases abs_cases (q - e.rational) with h4 | h4 <;> linarith

end Nearest

/-! ## Rounding -/

/-- How far a double is from a number of which the sign and the units are given. -/
theorem abs_sub_rational (s : Bool) {x : ℚ} (hx : 0 ≤ x) (d : Double) :
    |(if s then -1 else 1) * (x / unitsPerOne) - d.rational| * unitsPerOne =
      if d.negative = s then |x - d.magnitude| else x + d.magnitude := by
  have hU : (0 : ℚ) < unitsPerOne := Nat.cast_pos.2 unitsPerOne_pos
  have hsum : |x + d.magnitude| = x + d.magnitude :=
    abs_of_nonneg (add_nonneg hx (Nat.cast_nonneg _))
  have hunits : ((if s then -1 else 1) * (x / unitsPerOne) - d.rational) * unitsPerOne =
      (if s then -1 else 1) * x - d.units := by
    rw [rational_eq, sub_mul, div_mul_cancel₀ _ hU.ne', mul_assoc, div_mul_cancel₀ _ hU.ne']
  rw [← abs_of_pos hU, ← abs_mul, abs_of_pos hU, hunits, units]
  cases s <;> cases d.negative <;> simp only [Bool.false_eq_true, reduceIte, reduceCtorEq]
  · rw [one_mul, Int.cast_natCast]
  · rw [one_mul, Int.cast_neg, Int.cast_natCast, sub_neg_eq_add, hsum]
  · rw [neg_one_mul, Int.cast_natCast, ← neg_add', abs_neg, hsum]
  · rw [neg_one_mul, Int.cast_neg, Int.cast_natCast, sub_neg_eq_add, neg_add_eq_sub, abs_sub_comm]

/-- **Rounding gives the nearest double.** -/
theorem nearest_ofRatio (s : Bool) (num : ℕ) {den : ℕ} (h : 0 < den) :
    Nearest ((if s then -1 else 1) * ((num : ℚ) / den)) (ofRatio s num den) := by
  have hU : (0 : ℚ) < unitsPerOne := Nat.cast_pos.2 unitsPerOne_pos
  obtain ⟨hnan, hneg, -⟩ := ofMantissa_fields s
    (roundDiv (num * unitsPerOne) (den * Nat.pow 2 ((num * unitsPerOne / den).log2 - 52)))
    ((num * unitsPerOne / den).log2 - 52)
  change (ofRatio s num den).isNaN = false at hnan
  change (ofRatio s num den).negative = s at hneg
  have hbest := @magnitude_ofRatio_preferred s num den h
  have hquot : (num : ℚ) / den = ((num * unitsPerOne : ℕ) : ℚ) / den / unitsPerOne := by
    rw [Nat.cast_mul, div_right_comm, mul_div_cancel_right₀ _ hU.ne']
  rw [hquot]
  have hx : 0 ≤ ((num * unitsPerOne : ℕ) : ℚ) / den :=
    div_nonneg (Nat.cast_nonneg _) (Nat.cast_nonneg _)
  generalize ((num * unitsPerOne : ℕ) : ℚ) / den = x at *
  generalize ofRatio s num den = d at *
  refine ⟨hnan, fun e he hne => ?_⟩
  have hd := abs_sub_rational s hx d
  have he' := abs_sub_rational s hx e
  rw [if_pos hneg] at hd
  rw [Preferred, ← mul_lt_mul_iff_left₀ hU, ← mul_left_inj' hU.ne', hd, he']
  by_cases hsign : e.negative = s
  · rw [if_pos hsign]
    refine hbest he fun hmag => hne ?_
    rw [rational_eq, rational_eq, units, units, hmag, hneg, hsign]
  rw [if_neg hsign]
  -- A double of the other sign is as far away as its magnitude, or farther.
  have he0 : (0 : ℚ) ≤ e.magnitude := Nat.cast_nonneg _
  have hsum : |x - -e.magnitude| = x + e.magnitude := by
    rw [sub_neg_eq_add, abs_of_nonneg (add_nonneg hx he0)]
  by_cases hmag : e.magnitude = d.magnitude
  · -- Of two opposite doubles neither is zero, so that the number is not zero either.
    have hmag0 : d.magnitude ≠ 0 := fun hzero => hne (by
      rw [rational_eq, rational_eq, units, units, hmag, hzero, Nat.cast_zero, neg_zero, ite_self,
        ite_self])
    have hzero := (hbest isNaN_zero (Ne.symm hmag0)).le
    have hmag1 : (0 : ℚ) < d.magnitude := Nat.cast_pos.2 (Nat.pos_of_ne_zero hmag0)
    have hmagnitude : zero.magnitude = 0 := by decide
    rw [hmagnitude, Nat.cast_zero, sub_zero, abs_of_nonneg hx] at hzero
    rw [hmag]
    exact .inl (hzero.trans_lt (lt_add_of_pos_right x hmag1))
  · have hfar : |x - e.magnitude| ≤ |x - -e.magnitude| := by
      rw [hsum]
      exact abs_sub_le_iff.2 ⟨by linarith only [he0], by linarith only [hx]⟩
    rw [← hsum]
    exact (hbest he hmag).trans_le hfar

end Double

end DocStore
