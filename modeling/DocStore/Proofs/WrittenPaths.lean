import DocStore.Proofs.Places

/-!
# Paths that are written and put together

Where a path leads that is written behind a name or joined to another path.

* `FilePath.ofText_append` says that what is written behind a path belongs to its last name.
* `FilePath.goal_join` and `FilePath.mem_way_join` say where a path behind another one leads.
* `FilePath.Written` says that a path is as a text writes it. `FilePath.Written.ofText_text` says
  that such a path is read back, and `FilePath.Written.join` that it can be put together of others.
-/

namespace DocStore.FilePath

/-! ## Names with a suffix -/

theorem ofText_of_toList {s : String} {c : Char} {rest : List Char} (h : s.toList = c :: rest) :
    ofText s = if c = '/' then ⟨true, namesOf rest⟩ else ⟨false, namesOf (c :: rest)⟩ := by
  rw [ofText, h]

theorem namesOf_append {suffix : String} (h : '/' ∉ suffix.toList) (cs : List Char) :
    namesOf (cs ++ suffix.toList) =
      (namesOf cs).dropLast ++ [(namesOf cs).getLastD "" ++ suffix] := by
  rw [namesOf, Text.pieces_append_of_not_mem h, namesOf, List.map_append, List.map_dropLast]
  have hlast : ((Text.pieces '/' cs).map String.ofList).getLastD "" =
      String.ofList ((Text.pieces '/' cs).getLastD []) := by
    rw [List.getLastD_eq_getLast?, List.getLast?_map, List.getLastD_eq_getLast?]
    cases (Text.pieces '/' cs).getLast? <;> rfl
  rw [hlast, List.map_singleton, String.ofList_append, String.ofList_toList]

/-- What is written behind a path belongs to its last name. -/
theorem ofText_append {suffix : String} (hne : suffix ≠ "") (h : '/' ∉ suffix.toList) (s : String) :
    ofText (s ++ suffix) = ⟨(ofText s).absolute,
      (ofText s).names.dropLast ++ [(ofText s).names.getLastD "" ++ suffix]⟩ := by
  cases hs : s.toList with
  | nil =>
    obtain rfl : s = "" := String.toList_inj.1 hs
    cases hsuffix : suffix.toList with
    | nil => exact absurd (String.toList_inj.1 hsuffix) hne
    | cons c rest =>
      have hc : c ≠ '/' := fun heq => h (by rw [hsuffix, heq]; exact List.mem_cons_self)
      rw [String.empty_append, ofText_of_toList hsuffix, if_neg hc, ← hsuffix]
      exact congrArg _ (namesOf_append h [])
  | cons c rest =>
    have happend : (s ++ suffix).toList = c :: (rest ++ suffix.toList) := by
      rw [String.toList_append, hs, List.cons_append]
    rw [ofText_of_toList happend, ofText_of_toList hs]
    split
    · rw [namesOf_append h]
    · rw [← List.cons_append, namesOf_append h]

/-- A name of some length leads onward. -/
theorem proper_append {suffix : String} (h : 2 < suffix.length) (s : String) :
    isIdle (s ++ suffix) = false ∧ s ++ suffix ≠ ".." := by
  have hlength : 2 < (s ++ suffix).length := by
    rw [String.length_append]
    exact Nat.lt_of_lt_of_le h (Nat.le_add_left ..)
  have hne : ∀ short : String, short.length ≤ 2 → s ++ suffix ≠ short := fun short hshort heq => by
    rw [heq] at hlength
    exact absurd hshort (Nat.not_le.2 hlength)
  refine ⟨?_, hne ".." (by decide)⟩
  rw [isIdle, beq_false_of_ne (hne "" (by decide)), beq_false_of_ne (hne "." (by decide))]
  rfl

/-! ## Paths behind a path -/

section

variable {t : FileTree} {p q : FilePath} {r : List String}

theorem join_of_absolute (h : q.absolute = true) (p : FilePath) : p.join q = q := by
  rw [join, if_pos h]

theorem exists_join_eq (h : q.absolute = false) (p : FilePath) :
    ∃ names idle, p.names = names ++ idle ∧ (∀ name ∈ idle, isIdle name = true) ∧
      p.join q = ⟨p.absolute, names ++ q.names⟩ := by
  rw [join, if_neg (by simp [h])]
  by_cases hlast : p.names.getLast? = some ""
  · obtain ⟨names, hnames⟩ := List.getLast?_eq_some_iff.1 hlast
    refine ⟨names, [""], hnames, List.forall_mem_singleton.2 rfl, ?_⟩
    show FilePath.mk _ ((if _ then _ else _) ++ _) = _
    rw [if_pos hlast, hnames, List.dropLast_concat]
  · refine ⟨p.names, [], (List.append_nil _).symm, List.forall_mem_nil _, ?_⟩
    show FilePath.mk _ ((if _ then _ else _) ++ _) = _
    rw [if_neg hlast]

/-- A path behind another one goes on where that one leads. -/
theorem goal_join (h : q.absolute = false) : t.goal (p.join q) = goal (t.goal p) q.names := by
  obtain ⟨names, idle, hnames, hstay, hjoin⟩ := exists_join_eq h p
  have hstart : t.start (p.join q) = t.start p := by rw [hjoin]; rfl
  rw [FileTree.goal, FileTree.goal, hstart, hjoin, hnames, goal_append, goal_append,
    goal_of_isIdle hstay]

theorem mem_way_join (h : q.absolute = false) :
    r ∈ t.way (p.join q) ↔ r ∈ t.way p ∨ r ∈ way (t.goal p) q.names := by
  obtain ⟨names, idle, hnames, hstay, hjoin⟩ := exists_join_eq h p
  have hstart : t.start (p.join q) = t.start p := by rw [hjoin]; rfl
  rw [FileTree.way, FileTree.way, FileTree.goal, hstart, hjoin, hnames, mem_way_append,
    mem_way_append, goal_append, goal_of_isIdle hstay]
  have hidle : r ∈ way (goal (t.start p) names) idle → r ∈ way (t.start p) names := fun hr => by
    rw [eq_of_mem_way hstay hr]
    exact goal_mem_way ..
  rw [or_iff_left_of_imp hidle]

end

/-! ## Paths as texts write them -/

theorem not_mem_of_mem_namesOf {cs : List Char} {name : String} (h : name ∈ namesOf cs) :
    '/' ∉ name.toList := by
  obtain ⟨piece, hpiece, rfl⟩ := List.mem_map.1 h
  rw [String.toList_ofList]
  exact Text.not_mem_of_mem_pieces hpiece

/-- A path with names is as a text writes it: no name has a slash, and a path that leads from the
working directory does not begin with one. -/
structure Written (p : FilePath) : Prop where
  names : p.names ≠ []
  slashes : ∀ name ∈ p.names, '/' ∉ name.toList
  first : p.absolute = true ∨ p.names.head? ≠ some ""

theorem namesOf_joined {names : List String} (hne : names ≠ [])
    (h : ∀ name ∈ names, '/' ∉ name.toList) :
    namesOf (Text.joined '/' (names.map String.toList)) = names := by
  have hparts : ∀ part ∈ names.map String.toList, '/' ∉ part := fun part hpart => by
    obtain ⟨name, hname, rfl⟩ := List.mem_map.1 hpart
    exact h name hname
  rw [namesOf, Text.pieces_joined (by simpa using hne) hparts]
  simp [Function.comp_def]

/-- A path that is written is read back. -/
theorem Written.ofText_text {p : FilePath} (h : p.Written) : ofText p.text = p := by
  obtain ⟨absolute, names⟩ := p
  obtain ⟨hne, hslashes, hfirst⟩ := h
  have hnames := namesOf_joined hne hslashes
  cases absolute with
  | true =>
    rw [ofText_of_toList (s := text ⟨true, names⟩) (String.toList_ofList ..), if_pos rfl]
    exact congrArg (FilePath.mk true) hnames
  | false =>
    have htext : (text ⟨false, names⟩).toList = Text.joined '/' (names.map String.toList) :=
      String.toList_ofList ..
    cases names with
    | nil => exact absurd rfl hne
    | cons first more =>
      cases hc : first.toList with
      | nil =>
        obtain rfl : first = "" := String.toList_inj.1 hc
        simp at hfirst
      | cons c cs =>
        obtain ⟨rest, hrest⟩ :
            ∃ rest, Text.joined '/' ((first :: more).map String.toList) = c :: rest := by
          rw [List.map_cons, hc]
          cases more with
          | nil => exact ⟨_, rfl⟩
          | cons other more => exact ⟨_, rfl⟩
        have hslash : c ≠ '/' := fun heq => hslashes first List.mem_cons_self (by
          rw [hc, heq]
          exact List.mem_cons_self)
        rw [ofText_of_toList (htext.trans hrest), if_neg hslash, ← hrest, hnames]

theorem written_ofText {s : String} (h : s ≠ "") : (ofText s).Written := by
  cases hs : s.toList with
  | nil => exact absurd (String.toList_inj.1 hs) h
  | cons c rest =>
    have hne : ∀ cs, namesOf cs ≠ [] := fun cs => by
      simpa [namesOf] using Text.pieces_ne_nil '/' cs
    rw [ofText_of_toList hs]
    split
    · exact ⟨hne _, fun name => not_mem_of_mem_namesOf, .inl rfl⟩
    · rename_i hc
      refine ⟨hne _, fun name => not_mem_of_mem_namesOf, .inr ?_⟩
      cases hp : Text.pieces '/' rest with
      | nil => exact absurd hp (Text.pieces_ne_nil '/' rest)
      | cons piece others => simp [namesOf, Text.pieces, hp, hc]

theorem Written.join {p q : FilePath} (hp : p = .empty ∨ p.Written) (hq : q.Written) :
    (p.join q).Written := by
  cases habsolute : q.absolute with
  | true => rwa [join_of_absolute habsolute]
  | false =>
    obtain ⟨names, idle, hnames, -, hjoin⟩ := exists_join_eq habsolute p
    rw [hjoin]
    refine ⟨by simp [hq.names], fun name hname => ?_, ?_⟩
    · rcases List.mem_append.1 hname with hname | hname
      · have hmem : name ∈ p.names := hnames ▸ List.mem_append_left _ hname
        rcases hp with rfl | hp
        · cases hmem
        · exact hp.slashes name hmem
      · exact hq.slashes name hname
    · cases names with
      | nil => exact .inr (hq.first.resolve_left (by simp [habsolute]))
      | cons first more =>
        rcases hp with rfl | hp
        · cases hnames
        · refine hp.first.imp_right fun hfirst => ?_
          rwa [hnames] at hfirst

end DocStore.FilePath
