/-!
# Sets of code points

A property of characters that a standard lists is a table of ranges.

* `CodePoints` is such a table, `CodePoints.contains` its membership test, and `contains_iff` says
  that the test looks for a range around the character.
-/

namespace DocStore.Text

/-- A set of code points: the first and the last one of each of its ranges. -/
abbrev CodePoints := List (Nat × Nat)

namespace CodePoints

/-- Whether a character is in one of the ranges. -/
def contains (ranges : CodePoints) (c : Char) : Bool :=
  ranges.any fun (first, last) => first ≤ c.toNat && c.toNat ≤ last

theorem contains_iff {ranges : CodePoints} {c : Char} :
    ranges.contains c = true ↔ ∃ range ∈ ranges, range.1 ≤ c.toNat ∧ c.toNat ≤ range.2 := by
  simp [contains]

end CodePoints

end DocStore.Text
