import DocStore.Proofs.Agreement

/-!
# Over-long filters

A filter document may have 128 fields, and 128 entries are read of an array under a logical
operator. A document with more fields is refused. An array with more entries is not: the reader
stops at the limit, and what stands behind it is not looked at.

* `Filter.shortened` is a filter document as far as it is read, every array under a logical operator
  cut to 128 entries. `Filter.HasPart` finds the filter documents that are read, at any depth.
* `Filter.ofDocument_shortened` says that nothing but the shortened document counts, and
  `Filter.shortened_eq_self_iff` that this is the whole document just if all arrays fit.
* `Filter.ofDocument_of_shortened` is the main statement; `Filter.ofDocument_drops` is the
  refutation of the statement that an array that is too long is refused.
-/

namespace DocStore

namespace Filter

/-! ## What is read of a filter document -/

mutual

/-- A filter document as far as it is read: the first 128 entries of every array under a logical
operator, at any depth. -/
def shortened : List (String × Value) → Document
  | [] => []
  | (key, value) :: rest => (key, shortenedClause key value) :: shortened rest

/-- The value of a field of a filter document as far as it is read. -/
def shortenedClause (key : String) : Value → Value
  | .array items =>
    if key ∈ ["$and", "$or", "$nor"] then .array ((shortenedEach items).take 128) else .array items
  | value => value

/-- The entries under a logical operator, each as far as it is read. -/
def shortenedEach : List Value → List Value
  | [] => []
  | item :: rest => shortenedEntry item :: shortenedEach rest

/-- An entry under a logical operator as far as it is read. -/
def shortenedEntry : Value → Value
  | .document fields => .document (shortened fields)
  | item => item

end

/-- The filter documents that are read: the whole one, and those among the first 128 entries of an
array under a logical operator, at any depth. -/
inductive HasPart : Document → Document → Prop
  | whole (fields : Document) : HasPart fields fields
  | entry {fields : Document} {key : String} {items : List Value} {entry part : Document} :
    (key, .array items) ∈ fields → key ∈ ["$and", "$or", "$nor"] →
      .document entry ∈ items.take 128 → HasPart entry part → HasPart fields part

theorem shortened_eq (fields : Document) :
    shortened fields = fields.map fun field => (field.1, shortenedClause field.1 field.2) := by
  induction fields with
  | nil => rfl
  | cons field rest ih => rw [shortened, ih, List.map_cons]

theorem shortenedEach_eq (items : List Value) : shortenedEach items = items.map shortenedEntry := by
  induction items with
  | nil => rfl
  | cons item rest ih => rw [shortenedEach, ih, List.map_cons]

@[simp] theorem length_shortened (fields : Document) :
    (shortened fields).length = fields.length := by
  rw [shortened_eq, List.length_map]

theorem shortenedClause_path {key : String} (value : Value) (hk : key ∉ ["$and", "$or", "$nor"]) :
    shortenedClause key value = value := by
  cases value with
  | array items => rw [shortenedClause, if_neg hk]
  | _ => rfl

theorem shortenedClause_logical {key : String} (items : List Value)
    (hk : key ∈ ["$and", "$or", "$nor"]) :
    shortenedClause key (.array items) = .array ((items.map shortenedEntry).take 128) := by
  rw [shortenedClause, if_pos hk, shortenedEach_eq]

/-- An array in a shortened clause of a logical operator is one that has been cut. -/
theorem eq_array_of_shortenedClause {key : String} {value : Value} {cut : List Value}
    (hk : key ∈ ["$and", "$or", "$nor"]) (h : shortenedClause key value = .array cut) :
    ∃ items, value = .array items ∧ cut = (items.map shortenedEntry).take 128 := by
  cases value with
  | array items =>
    rw [shortenedClause_logical items hk] at h
    exact ⟨items, rfl, (Value.array.inj h).symm⟩
  | _ => cases h

theorem eq_document_of_shortenedEntry {item : Value} {cut : Document}
    (h : shortenedEntry item = .document cut) :
    ∃ entry : Document, item = .document entry ∧ cut = shortened entry := by
  cases item with
  | document entry => exact ⟨entry, rfl, (Value.document.inj h).symm⟩
  | _ => cases h

/-! ## Nothing else is read -/

@[simp] theorem readEntries_take (operator : String) (limit : Nat) (items : List Value) :
    readEntries operator limit (items.take limit) = readEntries operator limit items := by
  rw [readEntries_eq, readEntries_eq, List.take_take, Nat.min_self]

mutual

/-- The fields of a filter document are read as far as the shortened document has them. -/
theorem readClauses_shortened : ∀ fields : List (String × Value),
    readClauses (shortened fields) = readClauses fields
  | [] => rfl
  | (key, value) :: rest => by
    rw [shortened, readClauses, readClauses, readClauses_shortened rest]
    cases hc : combination? key with
    | some combine => simp only [readList_shortened (mem_logical_of_combination? hc) value]
    | none => rw [shortenedClause_path value (not_mem_logical_of_combination? hc)]

theorem readList_shortened {operator : String} (hk : operator ∈ ["$and", "$or", "$nor"]) :
    ∀ value : Value, readList operator (shortenedClause operator value) = readList operator value
  | .array items => by
    have hempty : ((shortenedEach items).take 128).isEmpty = items.isEmpty := by
      cases items <;> rfl
    rw [shortenedClause, if_pos hk, readList, readList, hempty, maxClauses, readEntries_take,
      readEntries_shortened operator 128 items]
  | .null | .bool _ | .int _ | .long _ | .double _ | .decimal _ | .string _ | .document _
  | .objectId _ | .date _ | .timestamp _ _ | .binary _ _ | .regex _ _ | .javaScript _
  | .javaScriptWithScope _ _ | .symbol _ | .undefined | .minKey | .maxKey | .dbPointer _ _ => rfl

theorem readEntries_shortened (operator : String) (limit : Nat) : ∀ items : List Value,
    readEntries operator limit (shortenedEach items) = readEntries operator limit items
  | [] => rfl
  | item :: rest => by
    rw [shortenedEach, readEntries, readEntries, readEntry_shortened operator item,
      readEntries_shortened operator (limit - 1) rest]

theorem readEntry_shortened (operator : String) : ∀ item : Value,
    readEntry operator (shortenedEntry item) = readEntry operator item
  | .document fields => by
    rw [shortenedEntry, readEntry, readEntry, length_shortened, readClauses_shortened fields]
  | .null | .bool _ | .int _ | .long _ | .double _ | .decimal _ | .string _ | .array _
  | .objectId _ | .date _ | .timestamp _ _ | .binary _ _ | .regex _ _ | .javaScript _
  | .javaScriptWithScope _ _ | .symbol _ | .undefined | .minKey | .maxKey | .dbPointer _ _ => rfl

end

/-- **A filter document is read as the shortened one.** -/
theorem ofDocument_shortened (filter : Document) :
    ofDocument (shortened filter) = ofDocument filter := by
  rw [ofDocument, ofDocument, length_shortened, readClauses_shortened]

/-! ## What is cut off -/

/-- All arrays of a shortened document fit. -/
theorem listsFit_shortened (filter : Document) : ListsFit (shortened filter) := by
  intro items h
  generalize hf : shortened filter = fields at h
  induction h generalizing filter with
  | here hm hk =>
    subst hf
    rw [shortened_eq, List.mem_map] at hm
    obtain ⟨⟨key, value⟩, -, hfield⟩ := hm
    obtain ⟨rfl, hvalue⟩ := Prod.mk.inj hfield
    obtain ⟨all, rfl, rfl⟩ := eq_array_of_shortenedClause hk hvalue
    rw [List.length_take]
    exact Nat.min_le_left _ _
  | inner hm hk he _ ih =>
    subst hf
    rw [shortened_eq, List.mem_map] at hm
    obtain ⟨⟨key, value⟩, -, hfield⟩ := hm
    obtain ⟨rfl, hvalue⟩ := Prod.mk.inj hfield
    obtain ⟨all, rfl, rfl⟩ := eq_array_of_shortenedClause hk hvalue
    obtain ⟨item, -, hitem⟩ := List.mem_map.1 (List.mem_of_mem_take he)
    obtain ⟨entry, rfl, rfl⟩ := eq_document_of_shortenedEntry hitem
    exact ih entry rfl

mutual

theorem shortened_of_listsFit : ∀ fields : List (String × Value), ListsFit fields →
    shortened fields = fields
  | [], _ => rfl
  | (key, value) :: rest, h => by
    have hvalue : shortenedClause key value = value := by
      refine shortenedClause_of_fit value fun hk items hi => ?_
      subst hi
      exact ⟨h.length_le hk, fun entry he => h.entry hk he⟩
    rw [shortened, hvalue, shortened_of_listsFit rest h.tail]

theorem shortenedClause_of_fit {key : String} : ∀ value : Value,
    (key ∈ ["$and", "$or", "$nor"] → ∀ items, value = .array items →
      items.length ≤ 128 ∧ ∀ entry, .document entry ∈ items → ListsFit entry) →
    shortenedClause key value = value
  | .array items, h => by
    rw [shortenedClause]
    split_ifs with hk
    · obtain ⟨hlen, hentries⟩ := h hk items rfl
      rw [shortenedEach_of_fit items hentries, List.take_of_length_le hlen]
    · rfl
  | .null, _ | .bool _, _ | .int _, _ | .long _, _ | .double _, _ | .decimal _, _ | .string _, _
  | .document _, _ | .objectId _, _ | .date _, _ | .timestamp _ _, _ | .binary _ _, _
  | .regex _ _, _ | .javaScript _, _ | .javaScriptWithScope _ _, _ | .symbol _, _
  | .undefined, _ | .minKey, _ | .maxKey, _ | .dbPointer _ _, _ => rfl

theorem shortenedEach_of_fit : ∀ items : List Value,
    (∀ entry, .document entry ∈ items → ListsFit entry) → shortenedEach items = items
  | [], _ => rfl
  | item :: rest, h => by
    have hitem : shortenedEntry item = item :=
      shortenedEntry_of_fit item fun entry he => h entry (by simp [he])
    rw [shortenedEach, hitem, shortenedEach_of_fit rest fun entry he =>
      h entry (List.mem_cons_of_mem _ he)]

theorem shortenedEntry_of_fit : ∀ item : Value,
    (∀ entry, item = .document entry → ListsFit entry) → shortenedEntry item = item
  | .document fields, h => by rw [shortenedEntry, shortened_of_listsFit fields (h fields rfl)]
  | .null, _ | .bool _, _ | .int _, _ | .long _, _ | .double _, _ | .decimal _, _ | .string _, _
  | .array _, _ | .objectId _, _ | .date _, _ | .timestamp _ _, _ | .binary _ _, _
  | .regex _ _, _ | .javaScript _, _ | .javaScriptWithScope _ _, _ | .symbol _, _
  | .undefined, _ | .minKey, _ | .maxKey, _ | .dbPointer _ _, _ => rfl

end

/-- Nothing is cut off just if all arrays fit. -/
theorem shortened_eq_self_iff {filter : Document} : shortened filter = filter ↔ ListsFit filter :=
  ⟨fun h => h ▸ listsFit_shortened filter, shortened_of_listsFit filter⟩

/-! ## The parts of a filter document -/

/-- What is read of a part of a filter document is a filter document if what is read of the whole
is. -/
theorem HasPart.validFilter {fields part : Document} (h : HasPart fields part) :
    ValidFilter (shortened fields) → ValidFilter (shortened part) := by
  induction h with
  | whole => exact id
  | @entry fields key items entry part hm hk he _ ih =>
    intro hvalid
    refine ih ?_
    have hclause : ValidClause key (shortenedClause key (.array items)) :=
      (validFilter_iff.1 hvalid).2 (key, shortenedClause key (.array items)) (by
        rw [shortened_eq]
        exact List.mem_map_of_mem hm)
    rw [shortenedClause_logical items hk, validClause_logical_iff hk] at hclause
    obtain ⟨cut, hcut, -, hentries⟩ := hclause
    obtain rfl := Value.array.inj hcut
    obtain ⟨other, ho, hother⟩ := hentries (shortenedEntry (.document entry)) (by
      rw [← List.map_take]
      exact List.mem_map_of_mem he)
    rw [shortenedEntry, Value.document.injEq] at ho
    exact ho ▸ hother

/-! ## The reader of filter documents -/

/-- The reader accepts what is read of a filter document where that is a filter document. -/
theorem reads_shortened (filter : Document) :
    Reads (ofDocument filter) (ValidFilter (shortened filter))
      fun doc => Selects doc (shortened filter) := by
  have hclauses := (reads_clauses _ (listsFit_shortened filter)).allOf
  rw [← ofDocument_shortened, ofDocument, maxClauses]
  split_ifs with hlen
  · exact .error fun hv => absurd (validFilter_iff.1 hv).1 (Nat.not_le.2 hlen)
  · refine hclauses.congr ?_ fun doc => ?_
    · rw [validFilter_iff, and_iff_right (Nat.not_lt.1 hlen)]
    · rw [selects_iff, List.forall_mem_map]

/-- **Documents that are too long are refused, arrays that are too long are cut.** A filter document
is read just if what is left of it when every array under a logical operator is cut to 128 entries
is a filter document, and then the filter is fulfilled by the documents that this selects. One that
has a part of more than 128 fields is refused. Nothing is cut off just if no array has more than 128
entries. -/
theorem ofDocument_of_shortened (filter : Document) :
    ((∃ f, ofDocument filter = .ok f) ↔ ValidFilter (shortened filter)) ∧
      (∀ f, ofDocument filter = .ok f →
        ∀ doc, f.fulfilledBy doc = true ↔ Selects doc (shortened filter)) ∧
      (∀ part, HasPart filter part → 128 < part.length →
        ∃ fault, ofDocument filter = .error fault) ∧
      (shortened filter = filter ↔ ∀ items, HasList filter items → items.length ≤ 128) := by
  obtain ⟨haccepts, hmeans⟩ := reads_shortened filter
  refine ⟨haccepts, hmeans, fun part hpart hlong => ?_, shortened_eq_self_iff⟩
  cases hread : ofDocument filter with
  | error fault => exact ⟨fault, rfl⟩
  | ok f =>
    have hfields := (validFilter_iff.1 (hpart.validFilter (haccepts.1 ⟨f, hread⟩))).1
    rw [length_shortened] at hfields
    omega

/-- Not every filter document with a part or an array that is too long is refused: of a conjunction
of 129 clauses the last one, here no filter document, is not looked at. -/
theorem ofDocument_drops :
    ¬ ∀ filter : Document,
        (∃ part, HasPart filter part ∧ 128 < part.length) ∨
          (∃ items, HasList filter items ∧ 128 < items.length) →
            ∃ fault, ofDocument filter = .error fault := by
  intro h
  obtain ⟨items, hitems⟩ : ∃ items : List Value,
      items = List.replicate 128 (.document []) ++ [.document [("$bad", .null)]] := ⟨_, rfl⟩
  have hlong : 128 < items.length := by simp [hitems]
  have hread : (ofDocument [("$and", .array items)]).isOk = true := by
    rw [hitems]
    decide +kernel
  obtain ⟨fault, hfault⟩ := h [("$and", .array items)]
    (.inr ⟨items, .here (List.mem_singleton_self _) (by decide), hlong⟩)
  rw [hfault] at hread
  cases hread

end Filter

end DocStore
