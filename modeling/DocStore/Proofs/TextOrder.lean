import DocStore.Filter.Text
import DocStore.Proofs.Agreement
import DocStore.Proofs.Catalogs

/-!
# Filters in the order of their text

The members of an object are read into a catalog, which has them in the order of their names. A
filter text is therefore read as a document whose fields may stand in another order than in the
text. The order of clauses and of operators does not matter, that of the fields of an operand does,
and so does which field stands first, since that one tells operators from an operand.

* `Json.inTextOrder` is a JSON value as a value of the store, in the order of the text;
  `Json.uniqueNames` says that no object names a member twice.
* `Json.steadyClauses` says of a filter object that it reads the same in either order: an object in
  it has its members in order or is one of clauses or operators.
* `Filter.ofText_agrees` is the main statement; `Filter.ofText_disagrees` is the refutation of the
  statement for all texts.
-/

namespace DocStore

namespace Json

/-! ## Objects in text order -/

mutual

/-- A JSON value as a value of the store, the fields of every document in text order. -/
def inTextOrder : Json → Value
  | null => .null
  | bool b => .bool b
  | integer n => ofInteger n
  | real d => .double d
  | string s => .string s
  | array items => .array (itemsInTextOrder items)
  | object members => .document (fieldsInTextOrder members)

/-- The elements of an array. -/
def itemsInTextOrder : List Json → List Value
  | [] => []
  | item :: rest => inTextOrder item :: itemsInTextOrder rest

/-- The members of an object. -/
def fieldsInTextOrder : List (String × Json) → List (String × Value)
  | [] => []
  | (name, value) :: rest => (name, inTextOrder value) :: fieldsInTextOrder rest

end

mutual

/-- Whether no object inside a JSON value, at any depth, names a member twice. -/
def uniqueNames : Json → Bool
  | array items => uniqueNamesItems items
  | object members => uniqueNamesMembers members
  | _ => true

/-- The same of every value of a list. -/
def uniqueNamesItems : List Json → Bool
  | [] => true
  | item :: rest => uniqueNames item && uniqueNamesItems rest

/-- The same of every member, and no name is repeated. -/
def uniqueNamesMembers : List (String × Json) → Bool
  | [] => true
  | (name, value) :: rest =>
    !(rest.map Prod.fst).contains name && uniqueNames value && uniqueNamesMembers rest

end

mutual

/-- Whether every object inside a JSON value, at any depth, has its members in the order of their
names. -/
def ordered : Json → Bool
  | array items => orderedItems items
  | object members => orderedMembers members
  | _ => true

/-- The same of every value of a list. -/
def orderedItems : List Json → Bool
  | [] => true
  | item :: rest => ordered item && orderedItems rest

/-- The same of every member, and the names are in order. -/
def orderedMembers : List (String × Json) → Bool
  | [] => true
  | (name, value) :: rest =>
    rest.all (fun member => name < member.1) && ordered value && orderedMembers rest

end

@[simp] theorem toValues_eq (items : List Json) : toValues items = items.map toValue := by
  induction items with
  | nil => rfl
  | cons item rest ih => rw [toValues, ih, List.map_cons]

@[simp] theorem itemsInTextOrder_eq (items : List Json) :
    itemsInTextOrder items = items.map inTextOrder := by
  induction items with
  | nil => rfl
  | cons item rest ih => rw [itemsInTextOrder, ih, List.map_cons]

@[simp] theorem toFields_eq (members : List (String × Json)) :
    toFields members = members.map fun member => (member.1, member.2.toValue) := by
  induction members with
  | nil => rfl
  | cons member rest ih => rw [toFields, ih, List.map_cons]

@[simp] theorem fieldsInTextOrder_eq (members : List (String × Json)) :
    fieldsInTextOrder members = members.map fun member => (member.1, member.2.inTextOrder) := by
  induction members with
  | nil => rfl
  | cons member rest ih => rw [fieldsInTextOrder, ih, List.map_cons]

theorem uniqueNamesMembers_iff {members : List (String × Json)} :
    uniqueNamesMembers members = true ↔
      (members.map Prod.fst).Nodup ∧ ∀ member ∈ members, member.2.uniqueNames = true := by
  induction members with
  | nil => simp [uniqueNamesMembers]
  | cons member rest ih =>
    rw [uniqueNamesMembers, Bool.and_eq_true, Bool.and_eq_true, ih, List.map_cons,
      List.nodup_cons, List.forall_mem_cons]
    simp only [Bool.not_eq_true', ← Bool.not_eq_true, List.contains_iff_mem]
    tauto

/-- The fields of a catalog are those in text order, each as the catalog has it. -/
theorem ofPairs_toFields_perm {members : List (String × Json)}
    (h : uniqueNamesMembers members = true) :
    (Catalog.ofPairs (toFields members)).Perm
      (members.map fun member => (member.1, member.2.toValue)) := by
  rw [← toFields_eq]
  refine Catalog.ofPairs_perm ?_
  rw [toFields_eq, List.map_map]
  exact (uniqueNamesMembers_iff.1 h).1

mutual

/-- A value whose objects are in order is the same in either order. -/
theorem toValue_of_ordered : ∀ {json : Json}, json.ordered = true → json.toValue = json.inTextOrder
  | null, _ | bool _, _ | integer _, _ | real _, _ | string _, _ => rfl
  | array items, h => by
    rw [ordered] at h
    rw [toValue, inTextOrder, toValues_of_ordered h]
  | object members, h => by
    rw [ordered] at h
    obtain ⟨hfields, hsorted⟩ := toFields_of_ordered h
    rw [toValue, inTextOrder, Catalog.ofPairs_of_pairwise hsorted, hfields]

theorem toValues_of_ordered : ∀ {items : List Json}, orderedItems items = true →
    toValues items = itemsInTextOrder items
  | [], _ => rfl
  | item :: rest, h => by
    rw [orderedItems, Bool.and_eq_true] at h
    rw [toValues, itemsInTextOrder, toValue_of_ordered h.1, toValues_of_ordered h.2]

theorem toFields_of_ordered : ∀ {members : List (String × Json)}, orderedMembers members = true →
    toFields members = fieldsInTextOrder members ∧
      (toFields members).Pairwise (·.1 < ·.1)
  | [], _ => ⟨rfl, .nil⟩
  | (name, value) :: rest, h => by
    simp only [orderedMembers, Bool.and_eq_true, List.all_eq_true, decide_eq_true_eq] at h
    obtain ⟨hrest, hsorted⟩ := toFields_of_ordered h.2
    refine ⟨by rw [toFields, fieldsInTextOrder, toValue_of_ordered h.1.2, hrest], ?_⟩
    rw [toFields, List.pairwise_cons, toFields_eq]
    rw [toFields_eq] at hsorted
    refine ⟨List.forall_mem_map.2 fun member hm => h.1.1 member hm, hsorted⟩

end

/-! ## Objects that say the same in either order -/

mutual

/-- Whether an operand says the same in either order. A document that is one of operators in either
order does where its operands do; any other has to have its objects in order. -/
def steadyOperand : Json → Bool
  | object members =>
    Document.startsWithOperator (Catalog.ofPairs (toFields members)) &&
        Document.startsWithOperator (fieldsInTextOrder members) && steadyOperators members ||
      ordered (object members)
  | json => ordered json

/-- The same of every operand of a document of operators, of which only a negation has a document of
operators as its own operand. -/
def steadyOperators : List (String × Json) → Bool
  | [] => true
  | (operator, operand) :: rest =>
    (if operator = "$not" then steadyOperand operand else ordered operand) && steadyOperators rest

end

mutual

/-- Whether a filter object says the same in either order: each of its members does. -/
def steadyClauses : List (String × Json) → Bool
  | [] => true
  | (key, value) :: rest => steadyClause key value && steadyClauses rest

/-- Whether a member of a filter object says the same in either order. -/
def steadyClause (key : String) : Json → Bool
  | array items =>
    if key ∈ ["$and", "$or", "$nor"] then steadyEntries items
    else isOperatorName key || ordered (array items)
  | json => isOperatorName key || steadyOperand json

/-- The same of the entries under a logical operator. -/
def steadyEntries : List Json → Bool
  | [] => true
  | item :: rest => steadyEntry item && steadyEntries rest

/-- The same of one entry. -/
def steadyEntry : Json → Bool
  | object members => steadyClauses members
  | _ => true

end

end Json

namespace Filter

open Json

/-! ## Readings in either order -/

variable {members : List (String × Json)}

theorem agreeEach_fields {read : String × Value → Except QueryFault Filter}
    (unique : uniqueNamesMembers members = true)
    (h : ∀ member ∈ members,
      Agree (read (member.1, member.2.toValue)) (read (member.1, member.2.inTextOrder))) :
    AgreeEach ((Catalog.ofPairs (toFields members)).mapM read)
      ((fieldsInTextOrder members).mapM read) := by
  have hperm := ofPairs_toFields_perm unique
  rw [fieldsInTextOrder_eq]
  refine .mapM (fun field hfield => ?_) (List.forall_mem_map.2 fun member hm => ?_)
  · obtain ⟨member, hm, rfl⟩ := List.mem_map.1 (hperm.mem_iff.1 hfield)
    exact ⟨_, List.mem_map_of_mem hm, h member hm⟩
  · exact ⟨_, hperm.mem_iff.2 (List.mem_map_of_mem hm), h member hm⟩

mutual

theorem readNegation_agree (path : String) : ∀ {json : Json}, json.uniqueNames = true →
    json.steadyOperand = true →
      Agree (readNegation path json.toValue) (readNegation path json.inTextOrder)
  | .object members, hu, h => by
    rw [uniqueNames] at hu
    rw [steadyOperand, Bool.or_eq_true, Bool.and_eq_true, Bool.and_eq_true] at h
    -- Either it is a document of operators in both orders, or there is only one order.
    rcases h with ⟨⟨hcatalog, htext⟩, hsteady⟩ | h
    · rw [toValue, inTextOrder, readNegation_document hcatalog, readNegation_document htext]
      exact (agreeEach_fields hu (readOperator_agree path hu hsteady)).map
        fun _ _ => SameEach.not_allOf
    · rw [toValue_of_ordered h]
      exact .refl _
  | .null, _, _ | .bool _, _, _ | .integer _, _, _ | .real _, _, _ | .string _, _, _ => .refl _
  | .array _, _, h => by
    rw [toValue_of_ordered h]
    exact .refl _

theorem readOperator_agree (path : String) : ∀ {members : List (String × Json)},
    uniqueNamesMembers members = true → steadyOperators members = true → ∀ member ∈ members,
      Agree (readOperator path (member.1, member.2.toValue))
        (readOperator path (member.1, member.2.inTextOrder))
  | [], _, _ => nofun
  | (operator, operand) :: rest, hu, h => by
    simp only [uniqueNamesMembers, Bool.and_eq_true] at hu
    rw [steadyOperators, Bool.and_eq_true] at h
    refine List.forall_mem_cons.2 ⟨?_, readOperator_agree path hu.2 h.2⟩
    rw [readOperator, readOperator]
    by_cases hn : operator = "$not"
    · rw [if_pos hn] at h
      rw [if_pos hn, if_pos hn]
      exact readNegation_agree path hu.1.2 h.1
    · rw [if_neg hn] at h
      rw [toValue_of_ordered h.1]
      exact .refl _

end

theorem readPath_agree (path : String) {json : Json} (hu : json.uniqueNames = true)
    (h : json.steadyOperand = true) :
    Agree (readPath path json.toValue) (readPath path json.inTextOrder) := by
  cases json with
  | object members =>
    rw [uniqueNames] at hu
    rw [steadyOperand, Bool.or_eq_true, Bool.and_eq_true, Bool.and_eq_true] at h
    rcases h with ⟨⟨hcatalog, htext⟩, hsteady⟩ | h
    · rw [toValue, inTextOrder, readPath_document hcatalog, readPath_document htext]
      exact (agreeEach_fields hu (readOperator_agree path hu hsteady)).map fun _ _ => SameEach.allOf
    · rw [toValue_of_ordered h]
      exact .refl _
  | _ =>
    rw [toValue_of_ordered h]
    exact .refl _

theorem agreeEach_entries {operator : String} {items : List Json} (limit : Nat)
    (h : ∀ item ∈ items,
      Agree (readEntry operator item.toValue) (readEntry operator item.inTextOrder)) :
    AgreeEach (readEntries operator limit (toValues items))
      (readEntries operator limit (itemsInTextOrder items)) := by
  rw [readEntries_eq, readEntries_eq, toValues_eq, itemsInTextOrder_eq, ← List.map_take,
    ← List.map_take]
  have htake : ∀ item ∈ items.take limit,
      Agree (readEntry operator item.toValue) (readEntry operator item.inTextOrder) :=
    fun item hm => h item (List.mem_of_mem_take hm)
  exact .mapM
    (List.forall_mem_map.2 fun item hm => ⟨_, List.mem_map_of_mem hm, htake item hm⟩)
    (List.forall_mem_map.2 fun item hm => ⟨_, List.mem_map_of_mem hm, htake item hm⟩)

theorem agreeEach_list {operator : String} {items : List Json}
    (h : ∀ item ∈ items,
      Agree (readEntry operator item.toValue) (readEntry operator item.inTextOrder)) :
    AgreeEach (readList operator (array items).toValue)
      (readList operator (array items).inTextOrder) := by
  have hempty : (toValues items).isEmpty = (itemsInTextOrder items).isEmpty := by
    cases items <;> rfl
  rw [toValue, inTextOrder, readList, readList, hempty]
  split_ifs
  · exact .refl _
  · exact agreeEach_entries maxClauses h

theorem steadyOperand_of_steadyClause {key : String} {json : Json} (hc : combination? key = none)
    (hop : isOperatorName key ≠ true) (h : json.steadyClause key = true) :
    json.steadyOperand = true := by
  cases json with
  | array items =>
    rw [steadyClause, if_neg (not_mem_logical_of_combination? hc), Bool.or_eq_true] at h
    exact h.resolve_left hop
  | _ => exact (Bool.or_eq_true_iff.1 h).resolve_left hop

theorem ofDocument_agree (unique : uniqueNamesMembers members = true)
    (h : ∀ member ∈ members,
      Agree (readClause (member.1, member.2.toValue))
        (readClause (member.1, member.2.inTextOrder))) :
    Agree (ofDocument (Catalog.ofPairs (toFields members)))
      (ofDocument (fieldsInTextOrder members)) := by
  have hlength : (Catalog.ofPairs (toFields members)).length =
      (fieldsInTextOrder members).length := by
    rw [(ofPairs_toFields_perm unique).length_eq]
    simp
  rw [ofDocument, ofDocument, hlength, readClauses_eq, readClauses_eq]
  split_ifs
  · exact .refl _
  · exact (agreeEach_fields unique h).map fun _ _ => SameEach.allOf

mutual

theorem readClause_agree : ∀ {members : List (String × Json)},
    uniqueNamesMembers members = true → steadyClauses members = true → ∀ member ∈ members,
      Agree (readClause (member.1, member.2.toValue)) (readClause (member.1, member.2.inTextOrder))
  | [], _, _ => nofun
  | (key, value) :: rest, hu, h => by
    simp only [uniqueNamesMembers, Bool.and_eq_true] at hu
    rw [steadyClauses, Bool.and_eq_true] at h
    refine List.forall_mem_cons.2 ⟨?_, readClause_agree hu.2 h.2⟩
    rw [readClause, readClause]
    cases hc : combination? key with
    | some combine =>
      -- What is no list is refused in either order.
      have hlist : AgreeEach (readList key value.toValue) (readList key value.inTextOrder) := by
        cases value with
        | array items =>
          have hitems := hu.1.2
          have hsteady := h.1
          rw [uniqueNames] at hitems
          rw [steadyClause, if_pos (mem_logical_of_combination? hc)] at hsteady
          exact agreeEach_list (readEntry_agree key hitems hsteady)
        | _ => exact .refl _
      exact hlist.map fun _ _ => SameEach.combination hc
    | none =>
      by_cases hop : isOperatorName key = true
      · rw [if_pos hop, if_pos hop]
        exact .refl _
      · rw [if_neg hop, if_neg hop]
        exact readPath_agree key hu.1.2 (steadyOperand_of_steadyClause hc hop h.1)

theorem readEntry_agree (operator : String) : ∀ {items : List Json},
    uniqueNamesItems items = true → steadyEntries items = true → ∀ item ∈ items,
      Agree (readEntry operator item.toValue) (readEntry operator item.inTextOrder)
  | [], _, _ => nofun
  | item :: rest, hu, h => by
    rw [uniqueNamesItems, Bool.and_eq_true] at hu
    rw [steadyEntries, Bool.and_eq_true] at h
    refine List.forall_mem_cons.2 ⟨?_, readEntry_agree operator hu.2 h.2⟩
    cases item with
    | object members =>
      rw [uniqueNames] at hu
      rw [steadyEntry] at h
      simp only [toValue, inTextOrder, readEntry_document]
      exact ofDocument_agree hu.1 (readClause_agree hu.1 h.1)
    | _ => exact .refl _

end

end Filter

namespace Json

/-! ## Texts without space -/

section

variable {depth limit : Nat} {cs rest tail : List Char} {name : String} {value : Json}
  {members : List (String × Json)}

theorem ofText?_eq_some {text : String} (h : readValue? maxDepth text.toList = some (value, [])) :
    ofText? text = some value := by
  rw [ofText?, h]
  rfl

theorem readValue?_digit {c : Char} (hc : c ∈ ['0', '1', '2', '3', '4', '5', '6', '7', '8', '9'])
    (h : readNumber? (c :: cs) = some (value, rest)) :
    readValue? depth (c :: cs) = some (value, rest) := by
  rw [readValue?, ← h]
  simp only [List.mem_cons, List.not_mem_nil, or_false] at hc
  rcases hc with rfl | rfl | rfl | rfl | rfl | rfl | rfl | rfl | rfl | rfl <;> rfl

theorem readValue?_object
    (h : readMembers? depth ('\x22' :: cs).length ('\x22' :: cs) = some (members, tail)) :
    readValue? (depth + 1) ('\x7b' :: '\x22' :: cs) = some (object members, tail) := by
  rw [readValue?]
  show (readMembers? depth _ _).bind _ = _
  rw [h]
  rfl

theorem readMembers?_last (hname : readString? cs = some (name, ':' :: rest))
    (hvalue : readValue? depth rest = some (value, '\x7d' :: tail)) :
    readMembers? depth (limit + 1) ('\x22' :: cs) = some ([(name, value)], tail) := by
  rw [readMembers?]
  show (readString? cs).bind _ = _
  rw [hname]
  show (readValue? depth rest).bind _ = _
  rw [hvalue]
  rfl

theorem readMembers?_cons {more : List Char} (hname : readString? cs = some (name, ':' :: rest))
    (hvalue : readValue? depth rest = some (value, ',' :: more))
    (hmore : readMembers? depth limit more = some (members, tail)) :
    readMembers? depth (limit + 1) ('\x22' :: cs) = some ((name, value) :: members, tail) := by
  rw [readMembers?]
  show (readString? cs).bind _ = _
  rw [hname]
  show (readValue? depth rest).bind _ = _
  rw [hvalue]
  show (readMembers? depth limit more).bind _ = _
  rw [hmore]
  rfl

end

end Json

namespace Filter

open Json

/-! ## Filter texts -/

/-- **A filter text says what the document in its order says**, where its objects say the same in
either order. -/
theorem ofText_agrees {text : String} {members : List (String × Json)}
    (read : Json.ofText? text = some (.object members))
    (unique : (Json.object members).uniqueNames = true) (steady : steadyClauses members = true) :
    ((∃ f, ofText text = .ok f) ↔ ∃ g, ofDocument (fieldsInTextOrder members) = .ok g) ∧
      ∀ f g, ofText text = .ok f → ofDocument (fieldsInTextOrder members) = .ok g →
        ∀ doc, f.fulfilledBy doc = g.fulfilledBy doc := by
  rw [uniqueNames] at unique
  have hagree := ofDocument_agree unique (readClause_agree unique steady)
  have htext : ∀ f, ofText text = .ok f ↔
      ofDocument (Catalog.ofPairs (toFields members)) = .ok f := by
    intro f
    rw [ofText, read]
    show (ofDocument _).mapError Failure.query = .ok f ↔ _
    cases ofDocument (Catalog.ofPairs (toFields members)) with
    | error fault => exact ⟨nofun, nofun⟩
    | ok g => exact ⟨(fun h => by cases h; rfl), fun h => by cases h; rfl⟩
  simp only [htext]
  exact ⟨hagree.accepts, fun f g => hagree.same f g⟩

theorem ofText?_operators :
    Json.ofText? "\x7b\"b\":\x7b\"$lt\":5,\"$gt\":1\x7d,\"a\":2\x7d" =
      some (.object [("b", .object [("$lt", .integer 5), ("$gt", .integer 1)]),
        ("a", .integer 2)]) :=
  ofText?_eq_some <| readValue?_object <|
    readMembers?_cons rfl
      (readValue?_object <| readMembers?_cons rfl (readValue?_digit (by decide) rfl) <|
        readMembers?_last rfl (readValue?_digit (by decide) rfl)) <|
      readMembers?_last rfl (readValue?_digit (by decide) rfl)

/-- Clauses and operators that are not in the order of their names. -/
theorem ofText_agrees_operators :
    ∃ f g, ofText "\x7b\"b\":\x7b\"$lt\":5,\"$gt\":1\x7d,\"a\":2\x7d" = .ok f ∧
      ofDocument [("b", .document [("$lt", .int 5), ("$gt", .int 1)]), ("a", .int 2)] = .ok g ∧
        ∀ doc, f.fulfilledBy doc = g.fulfilledBy doc := by
  obtain ⟨haccepts, hsame⟩ := ofText_agrees ofText?_operators (by decide) (by decide)
  obtain ⟨f, hf⟩ := haccepts.2 ⟨_, rfl⟩
  exact ⟨f, _, hf, rfl, hsame f _ hf rfl⟩

theorem ofText?_nested :
    Json.ofText? "\x7b\"a\":\x7b\"z\":1,\"b\":2\x7d\x7d" =
      some (.object [("a", .object [("z", .integer 1), ("b", .integer 2)])]) :=
  ofText?_eq_some <| readValue?_object <| readMembers?_last rfl <| readValue?_object <|
    readMembers?_cons rfl (readValue?_digit (by decide) rfl) <|
      readMembers?_last rfl (readValue?_digit (by decide) rfl)

/-- Not every filter text says what the document in its order says: a text that asks for equality
with a document asks for one whose fields are in the order of their names. -/
theorem ofText_disagrees :
    ¬ ∀ (text : String) (members : List (String × Json)),
        Json.ofText? text = some (.object members) → (Json.object members).uniqueNames = true →
          ((∃ f, ofText text = .ok f) ↔ ∃ g, ofDocument (fieldsInTextOrder members) = .ok g) ∧
            ∀ f g, ofText text = .ok f → ofDocument (fieldsInTextOrder members) = .ok g →
              ∀ doc, f.fulfilledBy doc = g.fulfilledBy doc := by
  intro h
  have hread : ofText "\x7b\"a\":\x7b\"z\":1,\"b\":2\x7d\x7d" =
      .ok (equality "a" (.document [("b", .int 2), ("z", .int 1)])) := by
    rw [ofText, ofText?_nested]
    rfl
  obtain ⟨-, hsame⟩ := h _ _ ofText?_nested (by decide)
  have hdoc := hsame _ _ hread rfl [("a", .document [("z", .int 1), ("b", .int 2)])]
  exact absurd hdoc (by decide +kernel)

end Filter

end DocStore
