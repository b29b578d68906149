import Mathlib.Data.List.Induction
import Mathlib.Data.String.Basic
import DocStore.Catalog

/-!
# What catalogs hold

A catalog holds nothing but what is entered (`Catalog.mem_of_mem_ofPairs`), and things with names of
their own it holds all (`Catalog.ofPairs_perm`). Where they are in the order of their names it lists
them as they are (`Catalog.ofPairs_of_pairwise`). Its names are in order whatever is entered and
taken out (`Catalog.pairwise_names_insert`, `Catalog.pairwise_names_erase`,
`Catalog.pairwise_names_ofPairs`).
-/

namespace DocStore.Catalog

variable {α : Type}

/-- A name that is new comes beside what the catalog has. -/
theorem insert_perm {catalog : Catalog α} {name : String} (a : α) (h : name ∉ catalog.names) :
    (insert catalog name a).Perm ((name, a) :: catalog) := by
  induction catalog with
  | nil => rfl
  | cons entry rest ih =>
    obtain ⟨k, b⟩ := entry
    rw [names, List.map_cons, List.mem_cons, not_or] at h
    rw [insert, if_neg (Ne.symm h.1)]
    split_ifs
    · rfl
    · exact ((ih h.2).cons _).trans (.swap ..)

theorem ofPairs_append_singleton (pairs : List (String × α)) (name : String) (a : α) :
    ofPairs (pairs ++ [(name, a)]) = insert (ofPairs pairs) name a := by
  rw [ofPairs, List.foldl_append]
  rfl

theorem mem_insert {catalog : Catalog α} {name : String} {a : α} {entry : String × α}
    (h : entry ∈ insert catalog name a) : entry = (name, a) ∨ entry ∈ catalog := by
  induction catalog with
  | nil => exact .inl (List.mem_singleton.1 h)
  | cons other rest ih =>
    rw [insert] at h
    split_ifs at h with hname hlt
    · exact (List.mem_cons.1 h).imp_right (List.mem_cons_of_mem _)
    · exact List.mem_cons.1 h
    · rcases List.mem_cons.1 h with rfl | h
      · exact .inr List.mem_cons_self
      · exact (ih h).imp_right (List.mem_cons_of_mem _)

theorem mem_of_mem_ofPairs {pairs : List (String × α)} {entry : String × α}
    (h : entry ∈ ofPairs pairs) : entry ∈ pairs := by
  induction pairs using List.reverseRecOn with
  | nil => cases h
  | append_singleton pairs last ih =>
    rw [ofPairs_append_singleton] at h
    rw [List.mem_append, List.mem_singleton]
    exact (mem_insert h).symm.imp_left ih

/-- A catalog holds the things that are entered, where each has a name of its own. -/
theorem ofPairs_perm {pairs : List (String × α)} (h : (pairs.map Prod.fst).Nodup) :
    (ofPairs pairs).Perm pairs := by
  induction pairs using List.reverseRecOn with
  | nil => rfl
  | append_singleton pairs entry ih =>
    obtain ⟨name, a⟩ := entry
    rw [List.map_append, List.nodup_append] at h
    obtain ⟨hpairs, -, hnew⟩ := h
    have hperm := ih hpairs
    have hname : name ∉ names (ofPairs pairs) := fun hm =>
      hnew name ((hperm.map Prod.fst).mem_iff.1 hm) name (by simp) rfl
    rw [ofPairs_append_singleton]
    exact (insert_perm a hname).trans ((hperm.cons _).trans (List.perm_append_singleton _ _).symm)

theorem insert_of_lt {catalog : Catalog α} {name : String} (a : α)
    (h : ∀ entry ∈ catalog, entry.1 < name) : insert catalog name a = catalog ++ [(name, a)] := by
  induction catalog with
  | nil => rfl
  | cons entry rest ih =>
    obtain ⟨k, b⟩ := entry
    obtain ⟨hk, hrest⟩ := List.forall_mem_cons.1 h
    rw [insert, if_neg (ne_of_lt hk), if_neg (lt_asymm hk), ih hrest, List.cons_append]

/-- Things in the order of their names are their own catalog. -/
theorem ofPairs_of_pairwise {pairs : List (String × α)} (h : pairs.Pairwise (·.1 < ·.1)) :
    ofPairs pairs = pairs := by
  induction pairs using List.reverseRecOn with
  | nil => rfl
  | append_singleton pairs entry ih =>
    obtain ⟨name, a⟩ := entry
    rw [List.pairwise_append] at h
    rw [ofPairs_append_singleton, ih h.1]
    exact insert_of_lt a fun other hother => h.2.2 other hother _ (List.mem_singleton_self _)

/-! ## The names of a catalog -/

theorem mem_names_iff {catalog : Catalog α} {name : String} :
    name ∈ catalog.names ↔ (find? catalog name).isSome := by
  induction catalog with
  | nil => simp [names, find?]
  | cons entry rest ih =>
    obtain ⟨k, b⟩ := entry
    rw [names, List.map_cons, List.mem_cons, find?]
    split_ifs with hk
    · exact iff_of_true (.inl hk.symm) rfl
    · rw [or_iff_right (Ne.symm hk)]
      exact ih

theorem mem_names_insert {catalog : Catalog α} {name other : String} {a : α}
    (h : other ∈ (insert catalog name a).names) : other = name ∨ other ∈ catalog.names := by
  obtain ⟨entry, hentry, rfl⟩ := List.mem_map.1 h
  rcases mem_insert hentry with rfl | hentry
  · exact .inl rfl
  · exact .inr (List.mem_map_of_mem hentry)

theorem pairwise_names_insert {catalog : Catalog α} (h : catalog.names.Pairwise (· < ·))
    (name : String) (a : α) : (insert catalog name a).names.Pairwise (· < ·) := by
  induction catalog with
  | nil => exact List.pairwise_singleton ..
  | cons entry rest ih =>
    obtain ⟨k, b⟩ := entry
    obtain ⟨hk, hrest⟩ := List.pairwise_cons.1 h
    rw [insert]
    split_ifs with hname hlt
    · subst hname
      exact .cons hk hrest
    · refine .cons (fun other hother => ?_) h
      rcases List.mem_cons.1 hother with rfl | hother
      · exact hlt
      · exact hlt.trans (hk other hother)
    · refine .cons (fun other hother => ?_) (ih hrest)
      rcases mem_names_insert hother with rfl | hother
      · exact lt_of_le_of_ne (not_lt.1 hlt) hname
      · exact hk other hother

theorem pairwise_names_ofPairs (pairs : List (String × α)) :
    (ofPairs pairs).names.Pairwise (· < ·) := by
  induction pairs using List.reverseRecOn with
  | nil => exact .nil
  | append_singleton pairs last ih =>
    rw [ofPairs_append_singleton]
    exact pairwise_names_insert ih _ _

theorem pairwise_names_erase {catalog : Catalog α} (h : catalog.names.Pairwise (· < ·))
    (name : String) : (erase catalog name).names.Pairwise (· < ·) :=
  h.sublist (List.filter_sublist.map Prod.fst)

end DocStore.Catalog
