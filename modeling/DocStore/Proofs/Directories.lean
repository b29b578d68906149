import DocStore.Proofs.RootedTrees
import Mathlib.Data.List.TakeWhile

/-!
# Directories that are made

A directory is made with all that lead to it, as far as they are missing. Whether this succeeds can
be told beforehand, from what stands on the way.

* `FileTree.settleDirectory_eq_ok` says what one directory adds to a tree, and
  `FileTree.settleDirectory_of_admits` when one can be made or is there.
* `FileTree.ensureDirectory_grows` says what is added with all that lead to it, whether or not the
  last one can be made, and `FileTree.ensureDirectory_eq_ok_iff` that no failure leaves it there.
* `FileTree.Admits` says that a path can be followed as soon as what is missing on it is made.
  `FileTree.ensureDirectory_of_admits` says that it can be made then.
* `FileTree.touch_grows` says what a file adds.
-/

namespace DocStore.FileTree

variable {t t' : FileTree} {p : FilePath} {place before names : List String} {name : String}

/-! ## The place of a new entry -/

theorem newPlace_concat (h : refusal? p = none) (before : List String) (name : String) :
    t.newPlace p (before ++ [name]) = (t.walk (t.start p) before).bind fun place =>
      if t.node? place ≠ some .directory then .error .notDirectory
      else if FilePath.isIdle name ∨ name = ".." then .error .alreadyExists
      else if maxNameBytes < name.utf8ByteSize then .error .nameTooLong
      else .ok (place, name) := by
  simp only [newPlace, h, List.getLast?_concat, List.dropLast_concat]
  rfl

/-- A new entry stands in a directory that is led to through directories, under a name that leads
onward. -/
theorem newPlace_eq_ok_iff :
    t.newPlace p names = .ok (place, name) ↔
      ∃ before, names = before ++ [name] ∧ refusal? p = none ∧
        place = FilePath.goal (t.start p) before ∧
        (∀ q ∈ FilePath.way (t.start p) before, t.node? q = some .directory) ∧
        (∀ name ∈ names, name.utf8ByteSize ≤ maxNameBytes) ∧
        FilePath.isIdle name = false ∧ name ≠ ".." := by
  constructor
  · intro h
    cases hrefusal : refusal? p with
    | some fault => simp [newPlace, hrefusal] at h
    | none =>
      cases hlast : names.getLast? with
      | none => simp [newPlace, hrefusal, hlast] at h
      | some last =>
        obtain ⟨before, rfl⟩ := List.getLast?_eq_some_iff.1 hlast
        rw [newPlace_concat hrefusal] at h
        cases hwalk : t.walk (t.start p) before with
        | error fault => rw [hwalk] at h; cases h
        | ok r =>
          rw [hwalk, Except.bind] at h
          by_cases hnode : t.node? r = some .directory
          · rw [if_neg (not_not_intro hnode)] at h
            split at h
            · cases h
            · rename_i hname
              rw [not_or] at hname
              split at h
              · cases h
              · rename_i hlong
                cases h
                obtain ⟨hgoal, hway, hshort⟩ := walk_directory_iff.1 ⟨hwalk, hnode⟩
                refine ⟨before, rfl, rfl, hgoal, hway, ?_, by simpa using hname.1, hname.2⟩
                exact List.forall_mem_append.2
                  ⟨hshort, List.forall_mem_singleton.2 (Nat.not_lt.1 hlong)⟩
          · rw [if_pos hnode] at h
            cases h
  · rintro ⟨before, rfl, hrefusal, rfl, hway, hshort, hidle, hup⟩
    obtain ⟨hbefore, hlast⟩ := List.forall_mem_append.1 hshort
    obtain ⟨hwalk, hnode⟩ := walk_directory_iff.2 ⟨rfl, hway, hbefore⟩
    rw [newPlace_concat hrefusal, hwalk, Except.bind, if_neg (not_not_intro hnode),
      if_neg (by simp [hidle, hup]), if_neg (Nat.not_lt.2 (hlast name List.mem_cons_self))]

/-! ## One directory -/

/-- Slashes at the end of a path lead nowhere. -/
theorem exists_names_eq_append (names : List String) :
    ∃ slashes, names = (names.reverse.dropWhile (· == "")).reverse ++ slashes ∧
      ∀ name ∈ slashes, FilePath.isIdle name = true := by
  refine ⟨(names.reverse.takeWhile (· == "")).reverse, ?_, fun name hname => ?_⟩
  · rw [← List.reverse_append, List.takeWhile_append_dropWhile, List.reverse_reverse]
  · have hempty := List.mem_takeWhile_imp (List.mem_reverse.1 hname)
    rw [FilePath.isIdle, hempty, Bool.true_or]

theorem makeDirectory_eq (t : FileTree) (p : FilePath) :
    t.makeDirectory p =
      (t.newPlace p (p.names.reverse.dropWhile (· == "")).reverse).bind fun (place, name) =>
        if (t.node? (place ++ [name])).isSome then .error .alreadyExists
        else .ok (t.put (place ++ [name]) .directory) := rfl

/-- A directory that is made is what its path leads to. -/
theorem makeDirectory_eq_ok (h : t.makeDirectory p = .ok t') :
    t.Grows (fun place node => place = t.goal p ∧ node = .directory) t' ∧
      t'.isDirectory p = true := by
  rw [makeDirectory_eq] at h
  cases hnew : t.newPlace p (p.names.reverse.dropWhile (· == "")).reverse with
  | error fault => rw [hnew] at h; cases h
  | ok found =>
    obtain ⟨place, name⟩ := found
    obtain ⟨before, hnames, hrefusal, rfl, hway, hshort, hidle, hup⟩ := newPlace_eq_ok_iff.1 hnew
    obtain ⟨slashes, hslashes, hstay⟩ := exists_names_eq_append p.names
    rw [hnames] at hslashes hshort
    rw [hnew] at h
    dsimp only [Except.bind] at h
    have hlast : FilePath.goal (t.start p) (before ++ [name]) =
        FilePath.goal (t.start p) before ++ [name] := by
      rw [FilePath.goal_concat, FilePath.onward_of_proper hidle hup]
    have hgoal : t.goal p = FilePath.goal (t.start p) before ++ [name] := by
      rw [goal, hslashes, FilePath.goal_append, FilePath.goal_of_isIdle hstay, hlast]
    split at h
    · cases h
    · rename_i hnone
      cases h
      have hgrows : t.Grows (fun place node => place = t.goal p ∧ node = .directory)
          (t.put (FilePath.goal (t.start p) before ++ [name]) .directory) :=
        .make .refl (hway _ (FilePath.goal_mem_way ..)) (by simpa using hnone) ⟨hgoal.symm, rfl⟩
      -- the slashes that were left out are short and lead nowhere else
      refine ⟨hgrows, isDirectory_iff.2 ⟨⟨hrefusal, ?_⟩, fun r hr => ?_⟩⟩
      · rw [hslashes]
        exact List.forall_mem_append.2
          ⟨hshort, fun name hname => short_of_isIdle (hstay name hname)⟩
      · have hnew : (t.put (FilePath.goal (t.start p) before ++ [name]) .directory).node?
            (FilePath.goal (t.start p) before ++ [name]) = some .directory := by simp
        rw [hgrows.way, way, hslashes, FilePath.mem_way_append, FilePath.mem_way_concat,
          ← FilePath.goal_concat, hlast] at hr
        rcases hr with (hr | rfl) | hr
        · exact hgrows.kept (hway r hr)
        · exact hnew
        · rw [FilePath.eq_of_mem_way hstay hr]
          exact hnew

/-- A directory that is settled is what its path leads to. -/
theorem settleDirectory_eq_ok (h : t.settleDirectory p = .ok t') :
    t.Grows (fun place node => place = t.goal p ∧ node = .directory) t' ∧
      t'.isDirectory p = true := by
  unfold settleDirectory at h
  split at h
  · rename_i hmake
    cases h
    exact makeDirectory_eq_ok hmake
  · split at h
    · rename_i hdirectory
      cases h
      exact ⟨.refl, hdirectory⟩
    · cases h

theorem settleDirectory_of_isDirectory (h : t.isDirectory p = true) :
    ∃ t', t.settleDirectory p = .ok t' := by
  unfold settleDirectory
  split
  · exact ⟨_, rfl⟩
  · exact ⟨t, by rw [if_pos h]⟩

theorem not_isDirectory_of_settleDirectory {fault : FileFault}
    (h : t.settleDirectory p = .error fault) : t.isDirectory p = false := by
  cases hp : t.isDirectory p with
  | false => rfl
  | true =>
    obtain ⟨t', ht'⟩ := settleDirectory_of_isDirectory hp
    rw [ht'] at h
    cases h

/-- Nothing is wrong with a path by itself, and no file is in its way: it can be followed as soon as
what is missing on it is made. -/
structure Admits (t : FileTree) (p : FilePath) : Prop where
  usable : p.Usable
  clear : t.Clear (t.way p)

theorem stripped_of_ends (h : p.Ends before name) :
    (p.names.reverse.dropWhile (· == "")).reverse = before ++ [name] := by
  obtain ⟨slashes, hnames, hslashes⟩ := h.names
  have hne : name ≠ "" := fun heq => by simpa [FilePath.isIdle, heq] using h.onward
  rw [hnames, List.reverse_append, List.dropWhile_append_of_pos fun slash hslash => by
    simpa using hslashes slash (List.mem_reverse.1 hslash)]
  simp [hne]

/-- A directory that can be followed to is settled, unless one of those that lead to it is
missing. -/
theorem settleDirectory_of_admits (ht : t.Rooted) (h : t.Admits p) (hends : p.Ends before name) :
    (∃ t', t.settleDirectory p = .ok t') ∨
      t.settleDirectory p = .error .notFound ∧
        ¬ ∀ q ∈ FilePath.way (t.start p) before, t.node? q = some .directory := by
  have hstrip := stripped_of_ends hends
  have hgoal := goal_of_ends (t := t) hends
  have hshort : ∀ other ∈ before ++ [name], other.utf8ByteSize ≤ maxNameBytes := fun other ho => by
    obtain ⟨slashes, hnames, -⟩ := hends.names
    exact h.usable.short other (hnames ▸ List.mem_append_left _ ho)
  have hclear : t.Clear (FilePath.way (t.start p) before) := fun q hq =>
    h.clear q ((mem_way_of_ends hends).2 (.inl hq))
  rcases walk_of_clear ht (ht.start p) hclear (List.forall_mem_append.1 hshort).1 with hway | hwalk
  · refine .inl ?_
    have hthere : t.node? (t.goal p) = some .directory → ∃ t', t.settleDirectory p = .ok t' :=
      fun hlast => settleDirectory_of_isDirectory (isDirectory_iff.2 ⟨h.usable, fun r hr =>
        ((mem_way_of_ends hends).1 hr).elim (hway r) fun heq => heq ▸ hlast⟩)
    by_cases hup : name = ".."
    · -- what the last directory stands in is there already
      subst hup
      refine hthere ?_
      rw [hgoal, FilePath.onward_up]
      exact ht.parent (hway _ (FilePath.goal_mem_way ..))
    · rw [FilePath.onward_of_proper hends.onward hup] at hgoal
      cases hnode : t.node? (t.goal p) with
      | some node =>
        cases node with
        | directory => exact hthere hnode
        | file content => exact absurd hnode (h.clear _ (goal_mem_way t p) content)
      | none =>
        have hnew : t.newPlace p (before ++ [name]) =
            .ok (FilePath.goal (t.start p) before, name) :=
          newPlace_eq_ok_iff.2
            ⟨before, rfl, h.usable.accepted, rfl, hway, hshort, hends.onward, hup⟩
        have hmake : t.makeDirectory p = .ok (t.put (t.goal p) .directory) := by
          rw [makeDirectory_eq, hstrip, hnew]
          dsimp only [Except.bind]
          rw [← hgoal, hnode]
          rfl
        exact ⟨_, by rw [settleDirectory, hmake]⟩
  · have hmake : t.makeDirectory p = .error .notFound := by
      rw [makeDirectory_eq, hstrip, newPlace_concat h.usable.accepted, hwalk]
      rfl
    rw [settleDirectory, hmake]
    dsimp only
    split
    · exact .inl ⟨t, rfl⟩
    · rename_i hmissing
      refine .inr ⟨rfl, fun hway => ?_⟩
      have hok := (walk_directory_iff.2 ⟨rfl, hway, (List.forall_mem_append.1 hshort).1⟩).1
      rw [hwalk] at hok
      cases hok

/-! ## All directories that lead somewhere -/

/-- What can happen as a directory is made with those that lead to it. -/
inductive Ensures (t : FileTree) (p : FilePath) (above : List FilePath) :
    Except FileFault Unit × FileTree → Prop
  | empty : p = .empty → Ensures t p above (.ok (), t)
  | settled {t' : FileTree} : t.settleDirectory p = .ok t' → Ensures t p above (.ok (), t')
  | refused {fault : FileFault} : t.settleDirectory p = .error fault → fault ≠ .notFound →
    Ensures t p above (.error fault, t)
  | refusedAbove {fault : FileFault} {t' : FileTree} : t.ensure above = (.error fault, t') →
    Ensures t p above (.error fault, t')
  | settledLater {t' t'' : FileTree} : t.ensure above = (.ok (), t') →
    t'.settleDirectory p = .ok t'' → Ensures t p above (.ok (), t'')
  | refusedLater {fault : FileFault} {t' : FileTree} : t.ensure above = (.ok (), t') →
    t'.settleDirectory p = .error fault → Ensures t p above (.error fault, t')

theorem ensures (t : FileTree) (p : FilePath) (above : List FilePath) :
    Ensures t p above (t.ensure (p :: above)) := by
  rw [ensure]
  split
  · rename_i hempty
    exact .empty hempty
  · split
    · rename_i hsettle
      exact .settled hsettle
    · obtain ⟨result, t', habove⟩ : ∃ result t', t.ensure above = (result, t') := ⟨_, _, rfl⟩
      rw [habove]
      cases result with
      | error fault => exact .refusedAbove habove
      | ok _ =>
        dsimp only
        split
        · rename_i hsettle
          exact .settledLater habove hsettle
        · rename_i hsettle
          exact .refusedLater habove hsettle
    · rename_i hne hsettle
      exact .refused hsettle hne

/-- What is made with all that lead to it, whether or not all of it can be made. -/
theorem ensure_grows (t : FileTree) (paths : List FilePath) :
    t.Grows (fun place node => (∃ p ∈ paths, place = t.goal p) ∧ node = .directory)
      (t.ensure paths).2 := by
  induction paths with
  | nil => exact .refl
  | cons p above ih =>
    have hcons : ∀ place node, (∃ p ∈ above, place = t.goal p) ∧ node = Node.directory →
        (∃ q ∈ p :: above, place = t.goal q) ∧ node = Node.directory := by
      rintro place node ⟨⟨q, hq, hplace⟩, hnode⟩
      exact ⟨⟨q, List.mem_cons_of_mem _ hq, hplace⟩, hnode⟩
    have hsettle : ∀ {t' t'' : FileTree}, t'.goal p = t.goal p → t'.settleDirectory p = .ok t'' →
        t'.Grows (fun place node => (∃ q ∈ p :: above, place = t.goal q) ∧ node = .directory) t'' :=
      fun hgoal h => (settleDirectory_eq_ok h).1.mono fun place node hnew =>
        ⟨⟨p, List.mem_cons_self, hnew.1.trans hgoal⟩, hnew.2⟩
    have h := t.ensures p above
    generalize t.ensure (p :: above) = result at h
    cases h with
    | empty _ => exact .refl
    | settled h => exact hsettle rfl h
    | refused _ _ => exact .refl
    | refusedAbove h =>
      rw [h] at ih
      exact ih.mono hcons
    | settledLater h h' =>
      rw [h] at ih
      exact (ih.mono hcons).trans (hsettle (ih.goal p) h')
    | refusedLater h _ =>
      rw [h] at ih
      exact ih.mono hcons

theorem isDirectory_of_ensure {above : List FilePath} (h : t.ensure (p :: above) = (.ok (), t')) :
    p = .empty ∨ t'.isDirectory p = true := by
  have hcase := t.ensures p above
  rw [h] at hcase
  cases hcase with
  | empty hempty => exact .inl hempty
  | settled h => exact .inr (settleDirectory_eq_ok h).2
  | settledLater _ h => exact .inr (settleDirectory_eq_ok h).2

theorem not_isDirectory_of_ensure {paths : List FilePath} {fault : FileFault}
    (hpairs : paths.Pairwise fun p q => q.Above p) (hp : paths.head? = some p)
    (h : t.ensure paths = (.error fault, t')) : t'.isDirectory p = false := by
  induction paths generalizing p with
  | nil => cases hp
  | cons first above ih =>
    obtain rfl : first = p := Option.some.inj hp
    obtain ⟨habove, hpairs⟩ := List.pairwise_cons.1 hpairs
    have hcase := t.ensures first above
    rw [h] at hcase
    cases hcase with
    | refused hsettle _ => exact not_isDirectory_of_settleDirectory hsettle
    | refusedLater _ hsettle => exact not_isDirectory_of_settleDirectory hsettle
    | refusedAbove hfault =>
      cases above with
      | nil => cases hfault
      | cons q above =>
        have hq := ih hpairs rfl hfault
        have hne : q ≠ .empty := fun heq => by
          rw [ensure, if_pos heq] at hfault
          cases hfault
        refine Bool.eq_false_iff.2 fun hthere => ?_
        rw [isDirectory_of_above (habove q List.mem_cons_self) hne hthere] at hq
        cases hq

/-- **A directory is there after it has been made** with all that lead to it, and no failure leaves
it there. -/
theorem ensureDirectory_eq_ok_iff (hne : p ≠ .empty) :
    (t.ensureDirectory p).1 = .ok () ↔ (t.ensureDirectory p).2.isDirectory p = true := by
  obtain ⟨result, t', h⟩ : ∃ result t', t.ensureDirectory p = (result, t') := ⟨_, _, rfl⟩
  rw [h]
  cases result with
  | ok _ => simpa using (isDirectory_of_ensure h).resolve_left hne
  | error fault => simpa using not_isDirectory_of_ensure p.pairwise_parents rfl h

/-- What is made with a directory is on its way. -/
theorem ensureDirectory_grows (t : FileTree) (p : FilePath) :
    t.Grows (fun place node => place ∈ t.way p ∧ node = .directory) (t.ensureDirectory p).2 := by
  refine (t.ensure_grows (p :: p.parents)).mono ?_
  rintro place node ⟨⟨q, hq, rfl⟩, hnode⟩
  refine ⟨?_, hnode⟩
  rcases List.mem_cons.1 hq with rfl | hq
  · exact t.goal_mem_way q
  · exact mem_way_of_above (FilePath.above_of_mem_parents hq) (t.goal_mem_way q)

/-! ## When a directory can be made -/

theorem Admits.of_above {q : FilePath} (h : t.Admits p) (hq : q.Above p) (hne : q ≠ .empty) :
    t.Admits q :=
  ⟨h.usable.of_above hq hne, fun place hplace => h.clear place (mem_way_of_above hq hplace)⟩

theorem Admits.of_grows {kind : List String → Node → Prop} (h : t.Admits p)
    (hgrows : t.Grows kind t') (hkind : ∀ place node, kind place node → node = .directory) :
    t'.Admits p := by
  refine ⟨h.usable, fun place hplace content hnode => ?_⟩
  rw [hgrows.way] at hplace
  rcases hgrows.new hnode with hold | hnew
  · exact h.clear place hplace content hold
  · cases hkind _ _ hnew

/-- A path that leads to a directory of a grown tree was free of files before. -/
theorem admits_of_isDirectory {kind : List String → Node → Prop} (hgrows : t.Grows kind t')
    (h : t'.isDirectory p = true) : t.Admits p := by
  obtain ⟨husable, hway⟩ := isDirectory_iff.1 h
  rw [hgrows.way] at hway
  refine ⟨husable, fun place hplace content hnode => ?_⟩
  have hfile := hgrows.kept hnode
  rw [hway place hplace] at hfile
  cases hfile

/-- A directory can be made once those are made that lead to it. -/
theorem ensure_cons_of_admits {above : List FilePath} (ht : t.Rooted) (h : t.Admits p)
    (hends : p.Ends before name) (hok : (t.ensure above).1 = .ok ())
    (hway : ∀ q ∈ FilePath.way (t.start p) before, (t.ensure above).2.node? q = some .directory) :
    (t.ensure (p :: above)).1 = .ok () := by
  have hcase := t.ensures p above
  generalize t.ensure (p :: above) = result at hcase
  cases hcase with
  | empty _ => rfl
  | settled _ => rfl
  | settledLater _ _ => rfl
  | refused hsettle hne =>
    rcases settleDirectory_of_admits ht h hends with ⟨t', hsettled⟩ | ⟨hmissing, -⟩
    · rw [hsettle] at hsettled
      cases hsettled
    · rw [hsettle] at hmissing
      cases hmissing
      exact absurd rfl hne
  | refusedAbove hfault =>
    rw [hfault] at hok
    cases hok
  | refusedLater habove hsettle =>
    -- all that leads to the directory is there by now, so nothing is left to refuse it for
    have hgrows := t.ensure_grows above
    rw [habove] at hgrows hway
    rcases settleDirectory_of_admits (hgrows.rooted ht) (h.of_grows hgrows fun _ _ hnew => hnew.2)
      hends with ⟨t', hsettled⟩ | ⟨-, hmissing⟩
    · rw [hsettle] at hsettled
      cases hsettled
    · rw [hgrows.start] at hmissing
      exact absurd hway hmissing

/-- The first of the shorter paths leaves out names that stay in place. -/
theorem exists_shortenings_eq_cons (names : List String) :
    ∃ idle shorter shorters, FilePath.shortenings names = shorter :: shorters ∧
      names = idle ++ shorter ∧ ∀ name ∈ idle, FilePath.isIdle name = true := by
  induction names with
  | nil => exact ⟨[], [], [], rfl, rfl, nofun⟩
  | cons name before ih =>
    by_cases hidle : FilePath.isIdle name = true
    · obtain ⟨idle, shorter, shorters, h, hnames, hstay⟩ := ih
      refine ⟨name :: idle, shorter, shorters, ?_, by rw [hnames, List.cons_append],
        List.forall_mem_cons.2 ⟨hidle, hstay⟩⟩
      rw [FilePath.shortenings, if_pos hidle, h]
    · exact ⟨[], name :: before, _, by rw [FilePath.shortenings, if_neg hidle], rfl, nofun⟩

/-- Where directories are made along a path, all of its names lead to them. -/
theorem node?_ensure_shortened {absolute : Bool} {first names : List String} {tail : List FilePath}
    (hfirst : ∀ more, FilePath.mk absolute (first ++ more) ≠ .empty)
    (hok : (t.ensure (FilePath.shortened absolute first names ++ tail)).1 = .ok ()) :
    ∀ q ∈ t.way ⟨absolute, first ++ names.reverse⟩,
      (t.ensure (FilePath.shortened absolute first names ++ tail)).2.node? q = some .directory := by
  intro q hq
  obtain ⟨idle, shorter, shorters, hshorter, hnames, hstay⟩ := exists_shortenings_eq_cons names
  have hgrows := t.ensure_grows (FilePath.shortened absolute first names ++ tail)
  obtain ⟨result, t', h⟩ : ∃ result t',
    t.ensure (FilePath.shortened absolute first names ++ tail) = (result, t') := ⟨_, _, rfl⟩
  rw [h] at hok hgrows ⊢
  obtain rfl : result = .ok () := hok
  rw [FilePath.shortened, hshorter, List.map_cons, List.cons_append] at h
  have hdirectory := (isDirectory_of_ensure h).resolve_left (hfirst _)
  refine (isDirectory_iff.1 hdirectory).2 q ?_
  rw [way, hnames, List.reverse_append, ← List.append_assoc, FilePath.mem_way_append] at hq
  rw [way, hgrows.start]
  rcases hq with hq | hq
  · exact hq
  · rw [FilePath.eq_of_mem_way (fun name hname => hstay name (List.mem_reverse.1 hname)) hq]
    exact FilePath.goal_mem_way ..

/-- The paths that begin with the same names can be made if the shortest of them can. -/
theorem ensure_shortened {absolute : Bool} {first : List String} {tail : List FilePath}
    (ht : t.Rooted) (hfirst : ∀ more, FilePath.mk absolute (first ++ more) ≠ .empty)
    (hshortest : t.Admits ⟨absolute, first⟩ → (t.ensure (⟨absolute, first⟩ :: tail)).1 = .ok ())
    (names : List String) (h : t.Admits ⟨absolute, first ++ names.reverse⟩) :
    (t.ensure (FilePath.shortened absolute first names ++ tail)).1 = .ok () := by
  induction names with
  | nil =>
    rw [List.reverse_nil, List.append_nil] at h
    simpa [FilePath.shortened, FilePath.shortenings] using hshortest h
  | cons name before ih =>
    have hbefore := ih (h.of_above (FilePath.above_of_suffix (List.suffix_cons ..)) (hfirst _))
    by_cases hidle : FilePath.isIdle name = true
    · rwa [FilePath.shortened, FilePath.shortenings, if_pos hidle, ← FilePath.shortened]
    · have hpath : first ++ (name :: before).reverse = first ++ before.reverse ++ [name] := by
        rw [List.reverse_cons, List.append_assoc]
      rw [FilePath.shortened, FilePath.shortenings, if_neg hidle, List.map_cons, List.cons_append]
      exact ensure_cons_of_admits ht h (.of_names hpath (by simpa using hidle)) hbefore
        (node?_ensure_shortened hfirst hbefore)

theorem ensure_of_isDirectory {above : List FilePath} (h : t.isDirectory p = true) :
    (t.ensure (p :: above)).1 = .ok () := by
  obtain ⟨t', hsettle⟩ := settleDirectory_of_isDirectory h
  rw [ensure]
  split
  · rfl
  · rw [hsettle]

/-- A path whose names all stay in place leads to the directory that it starts from. -/
theorem ensure_of_isIdle {above : List FilePath} (ht : t.Rooted) (h : t.Admits p)
    (hstay : ∀ name ∈ p.names, FilePath.isIdle name = true) :
    (t.ensure (p :: above)).1 = .ok () := by
  refine ensure_of_isDirectory (isDirectory_iff.2 ⟨h.usable, fun q hq => ?_⟩)
  rw [FilePath.eq_of_mem_way hstay hq]
  exact ht.start p

/-- Of the shorter paths that begin with the same names, the nearest one leaves out the last name
that leads onward. -/
theorem tail_shortened {absolute : Bool} {first idle before : List String}
    (hidle : ∀ name ∈ idle, FilePath.isIdle name = true) (hname : FilePath.isIdle name = false) :
    (FilePath.shortened absolute first (idle ++ name :: before)).tail =
      FilePath.shortened absolute first before := by
  induction idle with
  | nil =>
    rw [List.nil_append, FilePath.shortened, FilePath.shortenings, if_neg (by simp [hname])]
    rfl
  | cons slash more ih =>
    rw [List.cons_append, FilePath.shortened, FilePath.shortenings,
      if_pos (hidle slash List.mem_cons_self)]
    exact ih fun name hmem => hidle name (List.mem_cons_of_mem _ hmem)

theorem shortened_of_isIdle {absolute : Bool} {first idle : List String}
    (h : ∀ name ∈ idle, FilePath.isIdle name = true) :
    FilePath.shortened absolute first idle = [⟨absolute, first⟩] := by
  induction idle with
  | nil => simp [FilePath.shortened, FilePath.shortenings]
  | cons name more ih =>
    rw [FilePath.shortened, FilePath.shortenings, if_pos (h name List.mem_cons_self)]
    exact ih fun other ho => h other (List.mem_cons_of_mem _ ho)

/-- A path of some more names can be made if the shortest path above it can. -/
theorem ensure_cons_shortened {first : List String} {tail : List FilePath} (ht : t.Rooted)
    (hfirst : ∀ more, FilePath.mk p.absolute (first ++ more) ≠ .empty)
    (hshortest : t.Admits ⟨p.absolute, first⟩ →
      (t.ensure (⟨p.absolute, first⟩ :: tail)).1 = .ok ())
    (h : t.Admits p) (hends : p.Ends (first ++ before) name) :
    (t.ensure (p :: (FilePath.shortened p.absolute first before.reverse ++ tail))).1 = .ok () := by
  have habove : FilePath.Above ⟨p.absolute, first ++ before.reverse.reverse⟩ p := by
    obtain ⟨slashes, hnames, -⟩ := hends.names
    refine ⟨rfl, ?_⟩
    rw [List.reverse_reverse, hnames, List.append_assoc]
    exact List.prefix_append ..
  have hok := ensure_shortened ht hfirst hshortest _ (h.of_above habove (hfirst _))
  refine ensure_cons_of_admits ht h hends hok fun q hq => node?_ensure_shortened hfirst hok q ?_
  rwa [List.reverse_reverse]

/-- **A directory can be made** with all that lead to it if its path can be followed as soon as what
is missing is made, and ends in a name that leads onward. -/
theorem ensureDirectory_of_admits (ht : t.Rooted) (h : t.Admits p) (hends : p.Ends before name) :
    (t.ensureDirectory p).1 = .ok () := by
  obtain ⟨slashes, hnames, hslashes⟩ := hends.names
  have hstay : ∀ slash ∈ slashes.reverse, FilePath.isIdle slash = true := fun slash hslash =>
    FilePath.isIdle_of_slash hslashes slash (List.mem_reverse.1 hslash)
  have htail : ∀ (absolute : Bool) (first more : List String),
      (FilePath.shortened absolute first (more ++ [name] ++ slashes).reverse).tail =
        FilePath.shortened absolute first more.reverse := fun absolute first more => by
    rw [List.reverse_append, List.reverse_concat, tail_shortened hstay hends.onward]
  obtain ⟨absolute, names⟩ := p
  obtain rfl : names = before ++ [name] ++ slashes := hnames
  rw [ensureDirectory]
  cases absolute with
  | true =>
    rw [FilePath.parents_absolute, htail, ← List.append_nil (FilePath.shortened ..)]
    refine ensure_cons_shortened (p := ⟨true, _⟩) ht (fun more => ?_) (fun hroot => ?_) h hends
    · simp [FilePath.empty]
    · exact ensure_of_isIdle ht hroot (List.forall_mem_nil _)
  | false =>
    cases before with
    | nil =>
      have hparents : FilePath.parents ⟨false, [] ++ [name] ++ slashes⟩ = [.empty] := by
        rw [List.nil_append, List.singleton_append, FilePath.parents_relative,
          shortened_of_isIdle hstay]
        rfl
      rw [hparents]
      refine ensure_cons_of_admits ht h hends rfl fun q hq => ?_
      rw [List.mem_singleton.1 hq]
      exact ht.start _
    | cons first more =>
      have hparents : FilePath.parents ⟨false, first :: more ++ [name] ++ slashes⟩ =
          FilePath.shortened false [first] more.reverse ++ [.empty] := by
        rw [← htail false [first] more]
        exact FilePath.parents_relative ..
      rw [hparents]
      refine ensure_cons_shortened (p := ⟨false, _⟩) ht (fun more => ?_) (fun hfirst => ?_) h hends
      · simp [FilePath.empty]
      · by_cases hidle : FilePath.isIdle first = true
        · exact ensure_of_isIdle ht hfirst (List.forall_mem_singleton.2 hidle)
        · refine ensure_cons_of_admits ht hfirst (.of_names (List.nil_append [first]).symm
            (by simpa using hidle)) rfl fun q hq => ?_
          rw [List.mem_singleton.1 hq]
          exact ht.start _

/-! ## One file -/

/-- A file that is made is where its path leads to. -/
theorem touch_grows (h : t.touch p = .ok t') :
    t.Grows (fun place node => place = t.goal p ∧ node = .file "") t' := by
  unfold touch at h
  cases hnew : t.newPlace p p.names with
  | error fault =>
    rw [hnew] at h
    cases h
  | ok found =>
    obtain ⟨place, name⟩ := found
    obtain ⟨before, hnames, -, rfl, hway, -, hidle, hup⟩ := newPlace_eq_ok_iff.1 hnew
    rw [hnew] at h
    dsimp only [bind, Except.bind] at h
    have hgoal : t.goal p = FilePath.goal (t.start p) before ++ [name] := by
      rw [goal, hnames, FilePath.goal_concat, FilePath.onward_of_proper hidle hup]
    split at h
    · rename_i hnone
      cases h
      exact .make .refl (hway _ (FilePath.goal_mem_way ..)) hnone ⟨hgoal.symm, rfl⟩
    · cases h
      exact .refl
    · cases h

end DocStore.FileTree
