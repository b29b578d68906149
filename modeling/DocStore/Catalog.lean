/-!
# Catalogs

A catalog lists named things in the order of their names, each name once. Names are ordered by code
points, which is also the order of their bytes.

* `Catalog.find?`, `Catalog.insert` and `Catalog.erase` look a name up, set it and take it out;
  `find?_insert_self`, `find?_insert_of_ne` and `find?_erase_of_ne` are the laws between them.
* `Catalog.ofPairs` enters things one after the other, so that the last of one name stays.
-/

namespace DocStore

/-- Named things in the order of their names. -/
abbrev Catalog (α : Type) := List (String × α)

namespace Catalog

variable {α : Type}

/-- The names of a catalog, in order. -/
def names (catalog : Catalog α) : List String := catalog.map Prod.fst

/-- The thing of a name. -/
def find? : Catalog α → String → Option α
  | [], _ => none
  | (k, a) :: rest, name => if k = name then some a else find? rest name

/-- Enter a thing under a name, in the place of any other of that name. -/
def insert : Catalog α → String → α → Catalog α
  | [], name, a => [(name, a)]
  | (k, b) :: rest, name, a =>
    if k = name then (name, a) :: rest
    else if name < k then (name, a) :: (k, b) :: rest
    else (k, b) :: insert rest name a

/-- Take a name out. -/
def erase (catalog : Catalog α) (name : String) : Catalog α :=
  catalog.filter fun (k, _) => k ≠ name

/-- The catalog of things entered one after the other. -/
def ofPairs (pairs : List (String × α)) : Catalog α :=
  pairs.foldl (fun catalog (name, a) => insert catalog name a) []

@[simp] theorem find?_insert_self (catalog : Catalog α) (name : String) (a : α) :
    find? (insert catalog name a) name = some a := by
  induction catalog with
  | nil => simp [insert, find?]
  | cons entry rest ih =>
    obtain ⟨k, b⟩ := entry
    by_cases hk : k = name
    · simp [insert, find?, hk]
    · by_cases hlt : name < k <;> simp [insert, find?, hk, hlt, ih]

@[simp] theorem find?_insert_of_ne (catalog : Catalog α) {name other : String} (a : α)
    (h : name ≠ other) :
    find? (insert catalog name a) other = find? catalog other := by
  induction catalog with
  | nil => simp [insert, find?, h]
  | cons entry rest ih =>
    obtain ⟨k, b⟩ := entry
    by_cases hk : k = name
    · subst hk
      simp [insert, find?, h]
    · by_cases hlt : name < k
      · simp [insert, find?, hk, hlt, h]
      · simp only [insert, hk, hlt, if_false, find?, ih]

@[simp] theorem find?_erase_self (catalog : Catalog α) (name : String) :
    find? (erase catalog name) name = none := by
  induction catalog with
  | nil => rfl
  | cons entry rest ih =>
    obtain ⟨k, b⟩ := entry
    by_cases hk : k = name
    · simpa [erase, hk] using ih
    · simpa [erase, hk, find?] using ih

@[simp] theorem find?_erase_of_ne (catalog : Catalog α) {name other : String} (h : name ≠ other) :
    find? (erase catalog name) other = find? catalog other := by
  induction catalog with
  | nil => rfl
  | cons entry rest ih =>
    obtain ⟨k, b⟩ := entry
    by_cases hk : k = name
    · subst hk
      simpa [erase, find?, h] using ih
    · by_cases ho : k = other
      · subst ho
        simp [erase, find?, hk]
      · simpa [erase, hk, find?, ho] using ih

end Catalog

end DocStore
