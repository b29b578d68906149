/-!
# Pieces

A text cut at every occurrence of a mark.

* `pieces` are what stands between the marks, at least one; `joined` puts a mark between pieces
  again, and `joined_pieces` and `pieces_joined` say that the two undo each other.
* `pieces_append_of_not_mem` says what becomes of the pieces of a text that is written on.
-/

namespace DocStore.Text

/-- What stands between the occurrences of a mark, at least one piece. -/
def pieces (mark : Char) : List Char → List (List Char)
  | [] => [[]]
  | c :: rest =>
    match pieces mark rest with
    | [] => [[]]
    | piece :: others =>
      if c = mark then [] :: piece :: others else (c :: piece) :: others

/-- Pieces with a mark between one and the next. -/
def joined (mark : Char) : List (List Char) → List Char
  | [] => []
  | [piece] => piece
  | piece :: others => piece ++ mark :: joined mark others

theorem pieces_ne_nil (mark : Char) (cs : List Char) : pieces mark cs ≠ [] := by
  cases cs with
  | nil => simp [pieces]
  | cons c rest =>
    simp only [pieces]
    split
    · simp
    · split <;> simp

@[simp] theorem pieces_cons_mark (mark : Char) (rest : List Char) :
    pieces mark (mark :: rest) = [] :: pieces mark rest := by
  cases h : pieces mark rest with
  | nil => exact absurd h (pieces_ne_nil mark rest)
  | cons piece others => simp [pieces, h]

@[simp] theorem joined_pieces (mark : Char) (cs : List Char) :
    joined mark (pieces mark cs) = cs := by
  induction cs with
  | nil => rfl
  | cons c rest ih =>
    cases h : pieces mark rest with
    | nil => exact absurd h (pieces_ne_nil mark rest)
    | cons piece others =>
      rw [h] at ih
      by_cases hc : c = mark
      · simp [pieces, h, hc, joined, ih]
      · cases others with
        | nil => simpa [pieces, h, hc, joined] using ih
        | cons other more =>
          simp only [joined] at ih
          simp [pieces, h, hc, joined, ih]

/-- A piece without the mark in front of a mark is the first piece. -/
theorem pieces_append_mark {mark : Char} {piece : List Char} (h : mark ∉ piece) (rest : List Char) :
    pieces mark (piece ++ mark :: rest) = piece :: pieces mark rest := by
  induction piece with
  | nil => exact pieces_cons_mark mark rest
  | cons c more ih =>
    simp only [List.mem_cons, not_or] at h
    simp [pieces, ih h.2, Ne.symm h.1]

theorem pieces_of_not_mem {mark : Char} {piece : List Char} (h : mark ∉ piece) :
    pieces mark piece = [piece] := by
  induction piece with
  | nil => rfl
  | cons c more ih =>
    simp only [List.mem_cons, not_or] at h
    simp [pieces, ih h.2, Ne.symm h.1]

theorem pieces_joined {mark : Char} {parts : List (List Char)} (hne : parts ≠ [])
    (h : ∀ part ∈ parts, mark ∉ part) : pieces mark (joined mark parts) = parts := by
  induction parts with
  | nil => exact absurd rfl hne
  | cons part others ih =>
    cases others with
    | nil => exact pieces_of_not_mem (h part (by simp))
    | cons other more =>
      rw [joined, pieces_append_mark (h part (by simp)),
        ih (by simp) fun p hp => h p (List.mem_cons_of_mem _ hp)]
      simp

theorem not_mem_of_mem_pieces {mark : Char} {cs piece : List Char} (h : piece ∈ pieces mark cs) :
    mark ∉ piece := by
  induction cs generalizing piece with
  | nil =>
    rw [List.mem_singleton.1 h]
    exact List.not_mem_nil
  | cons c rest ih =>
    cases hp : pieces mark rest with
    | nil => exact absurd hp (pieces_ne_nil mark rest)
    | cons first others =>
      rw [hp] at ih
      by_cases hc : c = mark
      · rw [hc, pieces_cons_mark, hp] at h
        rcases List.mem_cons.1 h with rfl | h
        · exact List.not_mem_nil
        · exact ih h
      · simp only [pieces, hp, if_neg hc] at h
        rcases List.mem_cons.1 h with rfl | h
        · exact fun hmem => (List.mem_cons.1 hmem).elim (Ne.symm hc) (ih List.mem_cons_self)
        · exact ih (List.mem_cons_of_mem _ h)

/-- Characters behind a text, none of which is the mark, belong to its last piece. -/
theorem pieces_append_of_not_mem {mark : Char} {more : List Char} (h : mark ∉ more)
    (cs : List Char) :
    pieces mark (cs ++ more) =
      (pieces mark cs).dropLast ++ [(pieces mark cs).getLastD [] ++ more] := by
  induction cs with
  | nil => exact pieces_of_not_mem h
  | cons c rest ih =>
    cases hp : pieces mark rest with
    | nil => exact absurd hp (pieces_ne_nil mark rest)
    | cons piece others =>
      rw [hp] at ih
      by_cases hc : c = mark
      · rw [hc, List.cons_append, pieces_cons_mark, pieces_cons_mark, ih, hp]
        simp [List.dropLast_cons_of_ne_nil]
      · cases others with
        | nil =>
          have ih' : pieces mark (rest ++ more) = [piece ++ more] := by simpa using ih
          simp [pieces, hp, hc, ih']
        | cons other others =>
          rw [List.dropLast_cons_cons, List.cons_append] at ih
          simp [pieces, hp, hc, ih]

/-- The first of some pieces make the first part of a text. -/
theorem joined_prefix (mark : Char) (first more : List (List Char)) :
    joined mark first <+: joined mark (first ++ more) := by
  induction first with
  | nil => exact List.nil_prefix
  | cons piece others ih =>
    cases others with
    | nil =>
      cases more with
      | nil => exact List.prefix_rfl
      | cons other more => exact List.prefix_append ..
    | cons other rest =>
      show piece ++ mark :: joined mark (other :: rest) <+: _
      exact (List.prefix_append_right_inj _).2 (List.cons_prefix_cons.2 ⟨rfl, ih⟩)

end DocStore.Text
