/-!
# Rounding quotients

Rounding a quotient of natural numbers to the nearest natural number, a tie going to the even
neighbour. It is the one rounding rule of the number readers in this library.

* `roundDiv num den` is the rounded quotient; `roundDiv_mul_cancel` says that it is exact on
  multiples, `le_roundDiv` and `roundDiv_le` that it is one of the two neighbours of the quotient.
-/

namespace DocStore

/-- The natural number nearest to `num / den`; a tie goes to the even neighbour. -/
def roundDiv (num den : Nat) : Nat :=
  let q := num / den
  let r := num % den
  if 2 * r < den then q else if den < 2 * r then q + 1 else q + q % 2

theorem le_roundDiv (num den : Nat) : num / den ≤ roundDiv num den := by
  simp only [roundDiv]
  split
  · exact Nat.le_refl _
  · split <;> omega

theorem roundDiv_le (num den : Nat) : roundDiv num den ≤ num / den + 1 := by
  simp only [roundDiv]
  split
  · omega
  · split <;> omega

theorem roundDiv_mul_cancel (n : Nat) {den : Nat} (h : 0 < den) : roundDiv (n * den) den = n := by
  simp [roundDiv, Nat.mul_div_cancel _ h, h]

end DocStore
