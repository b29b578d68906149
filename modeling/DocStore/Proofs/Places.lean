import DocStore.FileTree

/-!
# Places on the way of a path

The names of a path lead from place to place. Where they lead is told without a file tree; the tree
says how far they can be followed.

* `FilePath.way` are the places that names lead through, `FilePath.goal` is the last of them.
  `FileTree.way` and `FileTree.goal` are those of a path.
* `FilePath.Above` is the order of the paths above a path; `FilePath.pairwise_parents` says that
  `FilePath.parents` follows it.
* `FilePath.Ends` says what the last name of a path is that is more than a slash.
* `FilePath.Usable` says that nothing is wrong with a path by itself. `FileTree.isDirectory_iff`
  says that a path leads to a directory where it is usable and all places on its way are
  directories.
-/

namespace DocStore

/-! ## Ways -/

namespace FilePath

/-- Where a name leads from a place. -/
def onward (place : List String) (name : String) : List String :=
  if isIdle name then place else if name = ".." then place.dropLast else place ++ [name]

/-- The place that names lead to. -/
def goal (place : List String) (names : List String) : List String := names.foldl onward place

/-- The places that names lead through, with the one that they start from. -/
def way (place : List String) : List String → List (List String)
  | [] => [place]
  | name :: rest => place :: way (onward place name) rest

section

variable {place q : List String} {name : String} {names more : List String}

theorem onward_of_isIdle (h : isIdle name = true) (place : List String) :
    onward place name = place := by rw [onward, if_pos h]

@[simp] theorem onward_up (place : List String) : onward place ".." = place.dropLast := rfl

theorem onward_of_proper (h : isIdle name = false) (hup : name ≠ "..") (place : List String) :
    onward place name = place ++ [name] := by
  rw [onward, if_neg (by simp [h]), if_neg hup]

/-- A name stays in place, leads up, or leads to an entry. -/
theorem name_cases (name : String) :
    isIdle name = true ∨ name = ".." ∨ isIdle name = false ∧ name ≠ ".." := by
  cases hidle : isIdle name with
  | true => exact .inl rfl
  | false => exact .inr ((Decidable.em (name = "..")).imp_right fun hup => ⟨rfl, hup⟩)

@[simp] theorem goal_append (place names more : List String) :
    goal place (names ++ more) = goal (goal place names) more := List.foldl_append

theorem goal_concat (place names : List String) (name : String) :
    goal place (names ++ [name]) = onward (goal place names) name := goal_append ..

theorem start_mem_way (place names : List String) : place ∈ way place names := by
  cases names <;> exact List.mem_cons_self

theorem goal_mem_way (place names : List String) : goal place names ∈ way place names := by
  induction names generalizing place with
  | nil => exact List.mem_cons_self
  | cons name rest ih => exact List.mem_cons_of_mem _ (ih _)

theorem mem_way_append :
    q ∈ way place (names ++ more) ↔ q ∈ way place names ∨ q ∈ way (goal place names) more := by
  induction names generalizing place with
  | nil =>
    refine ⟨.inr, fun h => h.elim (fun hq => ?_) id⟩
    rw [List.mem_singleton.1 hq]
    exact start_mem_way place more
  | cons name rest ih =>
    show q ∈ place :: way (onward place name) (rest ++ more) ↔ _
    rw [List.mem_cons, ih, way, List.mem_cons, or_assoc]
    exact Iff.rfl

theorem mem_way_concat :
    q ∈ way place (names ++ [name]) ↔
      q ∈ way place names ∨ q = onward (goal place names) name := by
  rw [mem_way_append]
  constructor
  · rintro (h | h)
    · exact .inl h
    · rcases List.mem_cons.1 h with rfl | h
      · exact .inl (goal_mem_way place names)
      · exact .inr (List.mem_singleton.1 h)
  · rintro (h | rfl)
    · exact .inl h
    · exact .inr (List.mem_cons_of_mem _ List.mem_cons_self)

theorem mem_way_of_prefix (h : names <+: more) (hq : q ∈ way place names) : q ∈ way place more := by
  obtain ⟨rest, rfl⟩ := h
  exact mem_way_append.2 (.inl hq)

/-- Names that stay in place lead through no other place. -/
theorem eq_of_mem_way (h : ∀ name ∈ names, isIdle name = true) (hq : q ∈ way place names) :
    q = place := by
  induction names with
  | nil => exact List.mem_singleton.1 hq
  | cons name rest ih =>
    rw [way, onward_of_isIdle (h name List.mem_cons_self)] at hq
    rcases List.mem_cons.1 hq with hq | hq
    · exact hq
    · exact ih (fun other ho => h other (List.mem_cons_of_mem _ ho)) hq

theorem goal_of_isIdle (h : ∀ name ∈ names, isIdle name = true) (place : List String) :
    goal place names = place := eq_of_mem_way h (goal_mem_way place names)

end

/-! ## Paths above a path -/

/-- A path leads from the same start through the first of the names of another one. -/
structure Above (q p : FilePath) : Prop where
  absolute : q.absolute = p.absolute
  names : q.names <+: p.names

theorem empty_above {p : FilePath} (h : p.absolute = false) : empty.Above p :=
  ⟨h.symm, List.nil_prefix⟩

theorem Above.text {p q : FilePath} (h : q.Above p) : q.text.toList <+: p.text.toList := by
  obtain ⟨rest, hrest⟩ := h.names
  rw [FilePath.text, FilePath.text, String.toList_ofList, String.toList_ofList, h.absolute, ← hrest,
    List.map_append, List.prefix_append_right_inj]
  exact Text.joined_prefix ..

theorem suffix_of_mem_shortenings {names shorter : List String} (h : shorter ∈ shortenings names) :
    shorter <:+ names := by
  induction names with
  | nil =>
    obtain rfl := List.mem_singleton.1 h
    exact List.suffix_rfl
  | cons name before ih =>
    rw [shortenings] at h
    split at h
    · exact (ih h).trans (List.suffix_cons ..)
    · rcases List.mem_cons.1 h with rfl | h
      · exact List.suffix_rfl
      · exact (ih h).trans (List.suffix_cons ..)

theorem pairwise_shortenings (names : List String) :
    (shortenings names).Pairwise fun longer shorter => shorter <:+ longer := by
  induction names with
  | nil => exact List.pairwise_singleton ..
  | cons name before ih =>
    rw [shortenings]
    split
    · exact ih
    · exact List.pairwise_cons.2
        ⟨fun shorter h => (suffix_of_mem_shortenings h).trans (List.suffix_cons ..), ih⟩

theorem above_of_suffix {absolute : Bool} {first longer shorter : List String}
    (h : shorter <:+ longer) :
    Above ⟨absolute, first ++ shorter.reverse⟩ ⟨absolute, first ++ longer.reverse⟩ :=
  ⟨rfl, (List.prefix_append_right_inj _).2 (List.reverse_prefix.2 h)⟩

/-- The shorter and shorter paths that begin with the same names. The names that follow are given
last one first. -/
def shortened (absolute : Bool) (first names : List String) : List FilePath :=
  (shortenings names).map fun shorter => ⟨absolute, first ++ shorter.reverse⟩

theorem parents_absolute (names : List String) :
    parents ⟨true, names⟩ = (shortened true [] names.reverse).tail := by
  rw [shortened, ← List.map_tail]
  rfl

theorem parents_relative (first : String) (rest : List String) :
    parents ⟨false, first :: rest⟩ = (shortened false [first] rest.reverse).tail ++ [empty] := by
  rw [shortened, ← List.map_tail]
  rfl

theorem pairwise_shortened (absolute : Bool) (first names : List String) :
    (⟨absolute, first ++ names.reverse⟩ :: (shortened absolute first names).tail).Pairwise
      fun p q => q.Above p := by
  rw [shortened, ← List.map_tail]
  refine List.pairwise_cons.2 ⟨fun q hq => ?_, List.pairwise_map.2 ?_⟩
  · obtain ⟨shorter, hshorter, rfl⟩ := List.mem_map.1 hq
    exact above_of_suffix (suffix_of_mem_shortenings (List.mem_of_mem_tail hshorter))
  · exact (pairwise_shortenings names).tail.imp above_of_suffix

/-- Each of the paths above a path is above the nearer ones. -/
theorem pairwise_parents (p : FilePath) : (p :: p.parents).Pairwise fun p q => q.Above p := by
  obtain ⟨absolute, names⟩ := p
  cases absolute with
  | true =>
    have h := pairwise_shortened true [] names.reverse
    rw [List.reverse_reverse] at h
    rw [parents_absolute]
    exact h
  | false =>
    cases names with
    | nil => exact List.pairwise_singleton ..
    | cons first rest =>
      have h := pairwise_shortened false [first] rest.reverse
      rw [List.reverse_reverse] at h
      rw [parents_relative]
      refine List.pairwise_append.2 ⟨h, List.pairwise_singleton .., fun p hp q hq => ?_⟩
      cases List.mem_singleton.1 hq
      refine empty_above ?_
      rcases List.mem_cons.1 hp with rfl | hp
      · rfl
      · obtain ⟨_, _, rfl⟩ := List.mem_map.1 (List.mem_of_mem_tail hp)
        rfl

theorem above_of_mem_parents {p q : FilePath} (h : q ∈ p.parents) : q.Above p :=
  (List.pairwise_cons.1 p.pairwise_parents).1 q h

/-! ## Ends of paths -/

/-- A path ends in a name that leads onward, but for slashes. -/
structure Ends (p : FilePath) (before : List String) (name : String) : Prop where
  names : ∃ slashes, p.names = before ++ [name] ++ slashes ∧ ∀ slash ∈ slashes, slash = ""
  onward : isIdle name = false

theorem isIdle_of_slash {slashes : List String} (h : ∀ slash ∈ slashes, slash = "") :
    ∀ slash ∈ slashes, isIdle slash = true := fun slash hslash => by
  rw [h slash hslash]
  rfl

theorem Ends.of_names {p : FilePath} {before : List String} {name : String}
    (h : p.names = before ++ [name]) (hidle : isIdle name = false) : p.Ends before name :=
  ⟨⟨[], by rw [h, List.append_nil], List.forall_mem_nil _⟩, hidle⟩

/-! ## Usable paths -/

theorem refusal?_eq_none_iff {p : FilePath} :
    FileTree.refusal? p = none ↔
      '\x00' ∉ p.text.toList ∧ p ≠ empty ∧ p.text.utf8ByteSize < FileTree.pathBytesBound := by
  simp only [FileTree.refusal?, List.contains_iff_mem]
  by_cases hzero : '\x00' ∈ p.text.toList
  · simp [hzero]
  · by_cases hempty : p = empty
    · rw [if_neg hzero, if_pos hempty]
      simp [hempty]
    · simp [hzero, hempty]

/-- Nothing is wrong with a path by itself. -/
structure Usable (p : FilePath) : Prop where
  accepted : FileTree.refusal? p = none
  short : ∀ name ∈ p.names, name.utf8ByteSize ≤ FileTree.maxNameBytes

theorem Usable.of_above {p q : FilePath} (h : p.Usable) (hq : q.Above p) (hne : q ≠ empty) :
    q.Usable := by
  obtain ⟨haccepted, hshort⟩ := h
  refine ⟨?_, fun name hname => hshort name (hq.names.subset hname)⟩
  obtain ⟨hzero, -, hlength⟩ := refusal?_eq_none_iff.1 haccepted
  obtain ⟨rest, hrest⟩ := hq.text
  have htext : p.text = q.text ++ String.ofList rest := by
    rw [← String.toList_inj, ← hrest, String.toList_append, String.toList_ofList]
  refine refusal?_eq_none_iff.2 ⟨fun hmem => hzero (hq.text.subset hmem), hne, ?_⟩
  rw [htext, String.utf8ByteSize_append] at hlength
  exact Nat.lt_of_le_of_lt (Nat.le_add_right ..) hlength

end FilePath

/-! ## Places in a file tree -/

namespace FileTree

/-- The places on the way of a path, with the one that it leads to. -/
def way (t : FileTree) (p : FilePath) : List (List String) := FilePath.way (t.start p) p.names

/-- The place that a path leads to. -/
def goal (t : FileTree) (p : FilePath) : List String := FilePath.goal (t.start p) p.names

section

variable {t : FileTree} {p q : FilePath} {place r names : List String}
  {name : String}

theorem goal_mem_way (t : FileTree) (p : FilePath) : t.goal p ∈ t.way p :=
  FilePath.goal_mem_way ..

theorem start_eq_of_above (h : q.Above p) : t.start q = t.start p := by
  rw [start, start, h.absolute]

theorem mem_way_of_above (h : q.Above p) (hr : r ∈ t.way q) : r ∈ t.way p := by
  rw [way, start_eq_of_above h] at hr
  exact FilePath.mem_way_of_prefix h.names hr

theorem goal_of_ends (h : p.Ends names name) :
    t.goal p = FilePath.onward (FilePath.goal (t.start p) names) name := by
  obtain ⟨slashes, hnames, hslashes⟩ := h.names
  rw [goal, hnames, FilePath.goal_append,
    FilePath.goal_of_isIdle (FilePath.isIdle_of_slash hslashes), FilePath.goal_concat]

theorem mem_way_of_ends (h : p.Ends names name) :
    r ∈ t.way p ↔ r ∈ FilePath.way (t.start p) names ∨ r = t.goal p := by
  have hgoal := goal_of_ends (t := t) h
  obtain ⟨slashes, hnames, hslashes⟩ := h.names
  have hslash : r ∈ FilePath.way (FilePath.goal (t.start p) (names ++ [name])) slashes →
      r ∈ FilePath.way (t.start p) (names ++ [name]) := fun hr => by
    rw [FilePath.eq_of_mem_way (FilePath.isIdle_of_slash hslashes) hr]
    exact FilePath.goal_mem_way ..
  rw [way, hnames, FilePath.mem_way_append, or_iff_left_of_imp hslash, FilePath.mem_way_concat,
    hgoal]

/-! ### Following names -/

theorem short_of_isIdle (h : FilePath.isIdle name = true) : name.utf8ByteSize ≤ maxNameBytes := by
  rcases Bool.or_eq_true .. |>.mp h with h | h <;> rw [eq_of_beq h] <;> decide

section

variable {rest : List String} (hplace : t.node? place = some .directory)

include hplace

theorem walk_of_isIdle (h : FilePath.isIdle name = true) :
    t.walk place (name :: rest) = t.walk place rest := by
  rw [walk, if_neg (not_not_intro hplace), if_pos h]

@[simp] theorem walk_up : t.walk place (".." :: rest) = t.walk place.dropLast rest := by
  rw [walk, if_neg (not_not_intro hplace), if_neg (by decide), if_pos rfl]

theorem walk_of_proper (hidle : FilePath.isIdle name = false) (hup : name ≠ "..") :
    t.walk place (name :: rest) =
      if maxNameBytes < name.utf8ByteSize then .error .nameTooLong
      else if (t.node? (place ++ [name])).isSome then t.walk (place ++ [name]) rest
      else .error .notFound := by
  rw [walk, if_neg (not_not_intro hplace), if_neg (by simp [hidle]), if_neg hup]

end

/-- Names lead to a directory where they lead through directories. -/
theorem walk_directory_iff :
    (t.walk place names = .ok r ∧ t.node? r = some .directory) ↔
      r = FilePath.goal place names ∧
      (∀ q ∈ FilePath.way place names, t.node? q = some .directory) ∧
      ∀ name ∈ names, name.utf8ByteSize ≤ maxNameBytes := by
  induction names generalizing place with
  | nil =>
    show _ ↔ r = place ∧ (∀ q ∈ [place], _) ∧ ∀ name ∈ [], _
    rw [walk, Except.ok.injEq, List.forall_mem_singleton, eq_comm]
    constructor
    · rintro ⟨rfl, h⟩
      exact ⟨rfl, h, nofun⟩
    · rintro ⟨rfl, h, -⟩
      exact ⟨rfl, h⟩
  | cons name rest ih =>
    have hgoal : FilePath.goal place (name :: rest) =
        FilePath.goal (FilePath.onward place name) rest := rfl
    rw [FilePath.way, List.forall_mem_cons, List.forall_mem_cons, hgoal]
    by_cases hplace : t.node? place = some .directory
    · rcases FilePath.name_cases name with hidle | rfl | ⟨hidle, hup⟩
      · rw [walk_of_isIdle hplace hidle, ih, FilePath.onward_of_isIdle hidle]
        simp [hplace, short_of_isIdle hidle]
      · rw [walk_up hplace, ih, FilePath.onward_up]
        have hshort : "..".utf8ByteSize ≤ maxNameBytes := by decide
        simp [hplace, hshort]
      · rw [walk_of_proper hplace hidle hup, FilePath.onward_of_proper hidle hup]
        by_cases hlong : maxNameBytes < name.utf8ByteSize
        · simp [hlong, Nat.not_le.2 hlong]
        · rw [if_neg hlong]
          have hstart := FilePath.start_mem_way (place ++ [name]) rest
          cases hnode : t.node? (place ++ [name]) with
          | none =>
            refine ⟨fun h => (nomatch h.1), fun h => ?_⟩
            rw [h.2.1.2 _ hstart] at hnode
            cases hnode
          | some node =>
            rw [if_pos (by rfl), ih]
            simp [hplace, Nat.not_lt.1 hlong]
    · rw [walk, if_pos hplace]
      exact ⟨fun h => (nomatch h.1), fun h => absurd h.2.1.1 hplace⟩

theorem isDirectory_iff_find : t.isDirectory p = true ↔ t.find p = .ok .directory := by
  rw [isDirectory]
  split
  · rename_i h
    simp [h]
  · rename_i h
    exact ⟨nofun, fun hfind => absurd hfind h⟩

/-- **A path leads to a directory** where it is usable and leads through directories. -/
theorem isDirectory_iff :
    t.isDirectory p = true ↔ p.Usable ∧ ∀ r ∈ t.way p, t.node? r = some .directory := by
  have hfind : t.find p = .ok .directory ↔
      ∃ r, t.locate p = .ok r ∧ t.node? r = some .directory := by
    rw [find]
    cases t.locate p with
    | error fault => exact ⟨nofun, nofun⟩
    | ok r =>
      dsimp only [bind, Except.bind]
      cases hnode : t.node? r with
      | none => simp [hnode]
      | some node => simp [hnode]
  rw [isDirectory_iff_find, hfind]
  constructor
  · rintro ⟨r, hlocate, hnode⟩
    cases hrefusal : refusal? p with
    | some fault => simp [locate, hrefusal] at hlocate
    | none =>
      rw [locate, hrefusal] at hlocate
      obtain ⟨-, hway, hshort⟩ := walk_directory_iff.1 ⟨hlocate, hnode⟩
      exact ⟨⟨hrefusal, hshort⟩, hway⟩
  · rintro ⟨⟨hrefusal, hshort⟩, hway⟩
    refine ⟨t.goal p, ?_⟩
    rw [locate, hrefusal]
    exact walk_directory_iff.2 ⟨rfl, hway, hshort⟩

theorem isDirectory_of_above (hq : q.Above p) (hne : q ≠ .empty) (h : t.isDirectory p = true) :
    t.isDirectory q = true := by
  obtain ⟨husable, hway⟩ := isDirectory_iff.1 h
  exact isDirectory_iff.2 ⟨husable.of_above hq hne, fun r hr => hway r (mem_way_of_above hq hr)⟩

end

end FileTree

end DocStore
