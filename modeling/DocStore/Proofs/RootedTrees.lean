import DocStore.Proofs.Places

/-!
# Trees that are rooted and grow

What stands in a file tree stands in directories, and stays so as entries are made in it.

* `FileTree.Rooted` says that what stands in a tree stands in directories, as it does in the tree of
  a working directory: `FileTree.rooted_ofWorkingDirectory`.
* `FileTree.walk_of_clear` says that in such a tree names fail to lead on for a missing directory
  only, unless a file is on their way.
* `FileTree.Grows` says that a tree becomes another one as entries of some kinds are made in it.
  What has been there stays, and nothing else is new.
-/

namespace DocStore.FileTree

variable {t : FileTree} {p : FilePath} {place r names : List String} {name : String}

/-! ## Rooted trees -/

/-- What stands in a tree stands in directories, and the working directory is one. -/
structure Rooted (t : FileTree) : Prop where
  workingDirectory : t.node? t.workingDirectory = some .directory
  parent : ∀ {place : List String} {node : Node}, t.node? place = some node →
    t.node? place.dropLast = some .directory

/-- No file is among places. -/
def Clear (t : FileTree) (places : List (List String)) : Prop :=
  ∀ place ∈ places, ∀ content, t.node? place ≠ some (.file content)

theorem Rooted.start (h : t.Rooted) (p : FilePath) : t.node? (t.start p) = some .directory := by
  rw [FileTree.start]
  split
  · rfl
  · exact h.workingDirectory

/-- An entry that is made where nothing stands leaves the others in place. -/
theorem node?_put_of_some {node other : Node} (hnone : t.node? place = none)
    (h : t.node? r = some node) : (t.put place other).node? r = some node := by
  rw [node?_put_of_ne _ _ fun heq => ?_, h]
  rw [heq, hnone] at h
  cases h

theorem Rooted.put (ht : t.Rooted) {node : Node} (hplace : t.node? place = some .directory)
    (hnone : t.node? (place ++ [name]) = none) : (t.put (place ++ [name]) node).Rooted := by
  refine ⟨node?_put_of_some hnone ht.workingDirectory, fun {q other} hother => ?_⟩
  by_cases hq : q = place ++ [name]
  · rw [hq, List.dropLast_concat]
    exact node?_put_of_some hnone hplace
  · rw [node?_put_of_ne _ _ hq] at hother
    exact node?_put_of_some hnone (ht.parent hother)

theorem lookup_map_directory (f : Nat → List String) (l : List Nat) (place : List String) :
    (l.map fun i => (f i, Node.directory)).lookup place =
      if place ∈ l.map f then some .directory else none := by
  induction l with
  | nil => rfl
  | cons i rest ih =>
    by_cases h : place = f i
    · simp [h]
    · have hne : (place == f i) = false := beq_false_of_ne h
      rw [List.map_cons, List.lookup_cons, hne]
      simp [ih, h]

/-- A tree of a working directory has the directories that lead to it. -/
theorem node?_ofWorkingDirectory (names place : List String) :
    (ofWorkingDirectory names).node? place =
      if place <+: names then some .directory else none := by
  by_cases hroot : place = []
  · rw [node?, if_pos hroot, if_pos (hroot ▸ List.nil_prefix)]
  · have hmem : place ∈ (List.range names.length).map (fun i => names.take (i + 1)) ↔
        place <+: names := by
      constructor
      · intro h
        obtain ⟨i, -, rfl⟩ := List.mem_map.1 h
        exact List.take_prefix ..
      · intro h
        have hpos := List.length_pos_iff.2 hroot
        have hle := h.length_le
        refine List.mem_map.2 ⟨place.length - 1, List.mem_range.2 (by omega), ?_⟩
        rw [Nat.sub_add_cancel hpos, ← List.prefix_iff_eq_take.1 h]
    rw [node?, if_neg hroot]
    simp only [ofWorkingDirectory, lookup_map_directory, hmem]

/-- The tree of a working directory is rooted. -/
theorem rooted_ofWorkingDirectory (names : List String) : (ofWorkingDirectory names).Rooted := by
  refine ⟨?_, fun {place node} h => ?_⟩
  · rw [node?_ofWorkingDirectory, if_pos]
    exact List.prefix_rfl
  · rw [node?_ofWorkingDirectory] at h ⊢
    split at h
    · rename_i hprefix
      rw [if_pos ((List.dropLast_prefix place).trans hprefix)]
    · cases h

/-- Names fail to lead on for a missing directory only, unless a file is on their way. -/
theorem walk_of_clear (ht : t.Rooted) (hplace : t.node? place = some .directory)
    (hclear : t.Clear (FilePath.way place names))
    (hshort : ∀ name ∈ names, name.utf8ByteSize ≤ maxNameBytes) :
    (∀ q ∈ FilePath.way place names, t.node? q = some .directory) ∨
      t.walk place names = .error .notFound := by
  induction names generalizing place with
  | nil => exact .inl (List.forall_mem_singleton.2 hplace)
  | cons name rest ih =>
    have hrest : t.Clear (FilePath.way (FilePath.onward place name) rest) := fun q hq =>
      hclear q (List.mem_cons_of_mem _ hq)
    have hon : t.node? (FilePath.onward place name) = some .directory →
        (∀ q ∈ FilePath.way place (name :: rest), t.node? q = some .directory) ∨
          t.walk (FilePath.onward place name) rest = .error .notFound := fun h =>
      (ih h hrest fun other ho => hshort other (List.mem_cons_of_mem _ ho)).imp_left
        fun hway => List.forall_mem_cons.2 ⟨hplace, hway⟩
    rcases FilePath.name_cases name with hidle | rfl | ⟨hidle, hup⟩
    · rw [FilePath.onward_of_isIdle hidle] at hon
      rw [walk_of_isIdle hplace hidle]
      exact hon hplace
    · rw [walk_up hplace]
      exact hon (ht.parent hplace)
    · rw [FilePath.onward_of_proper hidle hup] at hon hrest
      rw [walk_of_proper hplace hidle hup,
        if_neg (Nat.not_lt.2 (hshort name List.mem_cons_self))]
      cases hnode : t.node? (place ++ [name]) with
      | none => exact .inr rfl
      | some node =>
        rw [if_pos (by rfl)]
        cases node with
        | directory => exact hon hnode
        | file content => exact absurd hnode (hrest _ (FilePath.start_mem_way ..) content)

/-! ## Trees that grow -/

/-- A tree with entries made in it one after the other: each in a directory, where nothing has
stood, and of one of some kinds. -/
inductive Grows (kind : List String → Node → Prop) (t : FileTree) : FileTree → Prop
  | refl : Grows kind t t
  | make {t' : FileTree} {place : List String} {name : String} {node : Node} :
    Grows kind t t' → t'.node? place = some .directory → t'.node? (place ++ [name]) = none →
    kind (place ++ [name]) node → Grows kind t (t'.put (place ++ [name]) node)

namespace Grows

variable {kind kind' : List String → Node → Prop} {t' t'' : FileTree} {node : Node}

theorem trans (h : Grows kind t t') (h' : Grows kind t' t'') : Grows kind t t'' := by
  induction h' with
  | refl => exact h
  | make _ hplace hnone hkind ih => exact .make ih hplace hnone hkind

theorem mono (hkind : ∀ place node, kind place node → kind' place node) (h : Grows kind t t') :
    Grows kind' t t' := by
  induction h with
  | refl => exact .refl
  | make _ hplace hnone hnew ih => exact .make ih hplace hnone (hkind _ _ hnew)

theorem workingDirectory (h : Grows kind t t') : t'.workingDirectory = t.workingDirectory := by
  induction h with
  | refl => rfl
  | make _ _ _ _ ih => exact ih

/-- What has stood in the tree is still there. -/
theorem kept (h : Grows kind t t') {place : List String} (hnode : t.node? place = some node) :
    t'.node? place = some node := by
  induction h with
  | refl => exact hnode
  | make _ _ hnone _ ih => exact node?_put_of_some hnone ih

theorem new (h : Grows kind t t') {place : List String} (hnode : t'.node? place = some node) :
    t.node? place = some node ∨ kind place node := by
  induction h with
  | refl => exact .inl hnode
  | @make t' q name other _ _ _ hkind ih =>
    by_cases hq : place = q ++ [name]
    · subst hq
      rw [node?_put_self _ _ (by simp)] at hnode
      cases hnode
      exact .inr hkind
    · rw [node?_put_of_ne _ _ hq] at hnode
      exact ih hnode

theorem rooted (h : Grows kind t t') (ht : t.Rooted) : t'.Rooted := by
  induction h with
  | refl => exact ht
  | make _ hplace hnone _ ih => exact ih.put hplace hnone

theorem start (h : Grows kind t t') (p : FilePath) : t'.start p = t.start p := by
  rw [FileTree.start, FileTree.start, h.workingDirectory]

theorem way (h : Grows kind t t') (p : FilePath) : t'.way p = t.way p := by
  rw [FileTree.way, FileTree.way, h.start]

theorem goal (h : Grows kind t t') (p : FilePath) : t'.goal p = t.goal p := by
  rw [FileTree.goal, FileTree.goal, h.start]

theorem isDirectory (h : Grows kind t t') (hp : t.isDirectory p = true) :
    t'.isDirectory p = true := by
  obtain ⟨husable, hway⟩ := isDirectory_iff.1 hp
  refine isDirectory_iff.2 ⟨husable, fun r hr => h.kept (hway r ?_)⟩
  rwa [h.way] at hr

end Grows

end DocStore.FileTree
