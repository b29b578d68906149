import DocStore.Proofs.Agreement
import DocStore.Proofs.Respelling

/-!
# Reworded filter documents

Two filter documents are equal: they name the same fields in the same order, and numbers may be of
different kinds in them at any depth. They are refused with one fault, or read as filters of one
shape. What is read of a number does not depend on its kind, with one exception: a test of presence
asks for absence where its operand is an integer or a double zero, but for presence where it is a
decimal zero.

* `Filter.declines_number_iff` says which numbers ask for absence; `Filter.asksPresence_alike` is
  when two equal operands ask for the same.
* `Filter.Matched` says of two readings that they fail with one fault or answer with what is
  related. `Filter.Matched.mapM_same` is about reading one by one.
* `Filter.PresencesAt` finds the operands of tests of presence that stand at one place of two filter
  documents.
* There is one lemma for each part of the reader: `readTest_matched`, `readOperators_matched`,
  `readPath_matched`, `readList_matched`, `ofDocument_matched`. Negations and entries under logical
  operators go by induction on the value.
* `Filter.ofDocument_reworded` is the main statement; `Filter.ofDocument_reworded_fails` is the
  refutation of the statement without a condition on zeros.
-/

namespace DocStore

/-! ## Operands of tests of presence -/

/-- Whether a value is a decimal that counts as zero. -/
def Value.isDecimalZero : Value → Bool
  | decimal d => d.toDouble.isZero
  | _ => false

namespace Filter

open Value (Alike)

variable {v w : Value}

/-- A number asks for absence where it is zero and no decimal. -/
theorem declines_number_iff {x : Scale} (h : v.Stands (.number x))
    (hzero : v.isDecimalZero = false) : Declines v ↔ x = .finite 0 := by
  have hclass := Value.orderClass?_eq_some_iff.2 ⟨_, h, rfl⟩
  cases v with
  | int n =>
    obtain rfl := Standing.number.inj (h.unique (Value.Denotes.int n).stands)
    rw [Scale.finite_injective.eq_iff, Int.cast_eq_zero, ← Int32.toInt_zero, Int32.toInt_inj]
    exact ⟨(fun | .int => rfl), fun e => e ▸ .int⟩
  | long n =>
    obtain rfl := Standing.number.inj (h.unique (Value.Denotes.long n).stands)
    rw [Scale.finite_injective.eq_iff, Int.cast_eq_zero, ← Int64.toInt_zero, Int64.toInt_inj]
    exact ⟨(fun | .long => rfl), fun e => e ▸ .long⟩
  | double d =>
    obtain rfl := Standing.number.inj (h.unique (Value.Denotes.double d).stands)
    rw [declines_double_iff, Number.place_eq_zero_iff]
  | decimal d =>
    obtain rfl := Standing.number.inj (h.unique (.number rfl))
    refine iff_of_false nofun fun e => ?_
    rw [Value.isDecimalZero, Number.place_eq_zero_iff.1 e] at hzero
    cases hzero
  | _ => cases hclass

/-- Of two equal operands that are decimal zeros both or neither, the second asks for absence where
the first does. -/
theorem Declines.alike (hv : Declines v) (h : v.Alike w)
    (hzero : v.isDecimalZero = w.isDecimalZero) : Declines w := by
  have hno : v.isDecimalZero = false := by cases hv <;> rfl
  have hnumber : ∀ x, v.Stands (.number x) → Declines w := fun x hx =>
    (declines_number_iff (hx.of_equal h.equal) (hzero ▸ hno)).2 ((declines_number_iff hx hno).1 hv)
  cases hv with
  | int => exact hnumber _ (Value.Denotes.int 0).stands
  | long => exact hnumber _ (Value.Denotes.long 0).stands
  | zero | minusZero => exact hnumber _ (Value.Denotes.double _).stands
  | bool =>
    obtain rfl := Value.eq_of_equal rfl rfl h.equal
    exact .bool
  | null =>
    obtain rfl := Value.eq_of_equal rfl rfl h.equal
    exact .null
  | undefined =>
    obtain rfl := Value.eq_of_equal rfl rfl h.equal
    exact .undefined

theorem asksPresence_alike (h : v.Alike w) (hzero : v.isDecimalZero = w.isDecimalZero) :
    asksPresence v = asksPresence w := by
  rw [Bool.eq_iff_iff, asksPresence_iff, asksPresence_iff]
  exact not_congr ⟨fun hv => hv.alike h hzero, fun hw => hw.alike h.symm hzero.symm⟩

/-! ## Filters of equal operands -/

-- The two filters meet one document, which need not be equal to itself: the law for filters on two
-- equal documents does not apply, and only the operands are exchanged.

variable {path operator : String}

theorem equalTo_alike_iff {doc : Document} (h : v.Alike w) :
    doc.EqualTo path v ↔ doc.EqualTo path w :=
  ⟨fun hv => hv.respells (.inr h), fun hw => hw.respells (.inr h.symm)⟩

theorem inRange_alike_iff {doc : Document} {op : Comparison} (h : v.Alike w) :
    doc.InRange path op v ↔ doc.InRange path op w :=
  ⟨fun hv => hv.respells (.inr h), fun hw => hw.respells (.inr h.symm)⟩

theorem same_of_holds {f g : Filter} (h : ∀ doc, Holds doc f ↔ Holds doc g) : Same f g := by
  intro doc
  rw [Bool.eq_iff_iff, fulfilledBy_iff, fulfilledBy_iff]
  exact h doc

theorem same_compare (path : String) (op : Comparison) (h : v.Alike w) :
    Same (compare path op v) (compare path op w) :=
  same_of_holds fun _ => holds_compare_iff (equalTo_alike_iff h) (inRange_alike_iff h)

theorem same_oneOf (path : String) {vs ws : List Value} (h : List.Forall₂ Alike vs ws) :
    Same (oneOf path vs) (oneOf path ws) := same_of_holds fun doc => by
  rw [Holds, Holds]
  exact Document.equalToOne_iff
    ((List.forall₂_take 1000 h).imp fun _ _ hvw => equalTo_alike_iff hvw)

theorem same_noneOf (path : String) {vs ws : List Value} (h : List.Forall₂ Alike vs ws) :
    Same (noneOf path vs) (noneOf path ws) := fun doc => by
  rw [fulfilledBy, fulfilledBy]
  exact congrArg Bool.not (same_oneOf path h doc)

/-! ## Readings that match -/

/-- Two readings fail with one fault, or answer with what is related. -/
inductive Matched {α β : Type} (r : α → β → Prop) :
    Except QueryFault α → Except QueryFault β → Prop
  | ok {a : α} {b : β} : r a b → Matched r (.ok a) (.ok b)
  | error (fault : QueryFault) : Matched r (.error fault) (.error fault)

namespace Matched

variable {α β γ δ : Type} {r : α → β → Prop} {s : γ → δ → Prop} {x : Except QueryFault α}
  {y : Except QueryFault β}

theorem map {f : α → γ} {g : β → δ} (h : Matched r x y) (hrs : ∀ a b, r a b → s (f a) (g b)) :
    Matched s (x.map f) (y.map g) := by
  cases h with
  | ok hr => exact .ok (hrs _ _ hr)
  | error fault => exact .error fault

theorem imp {s : α → β → Prop} (h : Matched r x y) (hrs : ∀ a b, r a b → s a b) :
    Matched s x y := by
  cases h with
  | ok hr => exact .ok (hrs _ _ hr)
  | error fault => exact .error fault

/-- Readings one by one match where those of the elements at each place do. -/
theorem mapM {read : γ → Except QueryFault α} {read' : δ → Except QueryFault β} {cs : List γ}
    {ds : List δ} (h : List.Forall₂ (fun c d => Matched r (read c) (read' d)) cs ds) :
    Matched (List.Forall₂ r) (cs.mapM read) (ds.mapM read') := by
  induction h with
  | nil => exact .ok .nil
  | @cons c d cs ds hcd _ ih =>
    rw [List.mapM_cons, List.mapM_cons]
    generalize read c = x, read' d = y, cs.mapM read = xs, ds.mapM read' = ys at hcd ih
    cases hcd with
    | error fault => exact .error fault
    | ok hr =>
      cases ih with
      | error fault => exact .error fault
      | ok hrs => exact .ok (.cons hr hrs)

/-- Filters that are read one by one say the same on a condition where those at each place do. -/
theorem mapM_same {read : γ → Except QueryFault Filter} {read' : δ → Except QueryFault Filter}
    {cs : List γ} {ds : List δ} {condition : Prop} (h : List.Forall₂ s cs ds)
    (hread : ∀ c d, (c, d) ∈ cs.zip ds → s c d →
      Matched (fun f g => condition → Same f g) (read c) (read' d)) :
    Matched (fun fs gs => condition → SameEach fs gs) (cs.mapM read) (ds.mapM read') :=
  (mapM (forall₂_of_mem_zip h hread)).imp fun _ _ hsame hc =>
    .of_forall₂ (hsame.imp fun _ _ hfg => hfg hc)

end Matched

/-! ## Operands at one place -/

/-- Two documents of operators have two operands of tests of presence at one place, under as many
negations. -/
inductive OperandsAt : Document → Document → Value → Value → Prop
  | here {fields others : Document} {v w : Value} :
    (("$exists", v), ("$exists", w)) ∈ fields.zip others → OperandsAt fields others v w
  | negated {fields others inner inner' : Document} {v w : Value} :
    (("$not", .document inner), ("$not", .document inner')) ∈ fields.zip others →
      OperandsAt inner inner' v w → OperandsAt fields others v w

/-- Two filter documents have two operands of tests of presence at one place: on a path, or in the
first 128 entries under a logical operator. -/
inductive PresencesAt : Document → Document → Value → Value → Prop
  | path {fields others ops ops' : Document} {path : String} {v w : Value} :
    ((path, .document ops), (path, .document ops')) ∈ fields.zip others →
      ops.startsWithOperator = true → OperandsAt ops ops' v w → PresencesAt fields others v w
  | entry {fields others entry entry' : Document} {key : String} {items items' : List Value}
    {v w : Value} :
    ((key, .array items), (key, .array items')) ∈ fields.zip others →
      key ∈ ["$and", "$or", "$nor"] →
        (.document entry, .document entry') ∈ (items.take 128).zip (items'.take 128) →
          PresencesAt entry entry' v w → PresencesAt fields others v w

/-- Values that are related are decimal zeros both or neither. -/
def ZerosAlike (related : Value → Value → Prop) : Prop :=
  ∀ v w, related v w → v.isDecimalZero = w.isDecimalZero

/-! ## Operators on a path -/

theorem readSet_matched (operator : String) (h : v.Alike w) :
    Matched (List.Forall₂ Alike) (readSet operator v) (readSet operator w) := by
  rcases readSet_cases operator v with ⟨vs, rfl, hread⟩ | ⟨hno, hread⟩
  · obtain ⟨ws, rfl, hvw⟩ := h.array
    exact .ok (List.forall₂_take _ hvw)
  · rcases readSet_cases operator w with ⟨ws, rfl, -⟩ | ⟨-, hread'⟩
    · obtain ⟨vs, rfl, -⟩ := h.symm.array
      exact (hno vs rfl).elim
    · rw [hread, hread']
      exact .error _

theorem readTest_matched (path operator : String) (h : v.Alike w) :
    Matched (fun f g => (operator = "$exists" → v.isDecimalZero = w.isDecimalZero) → Same f g)
      (readTest path operator v) (readTest path operator w) := by
  unfold readTest
  split
  · exact .ok fun _ => same_compare path _ h
  · split_ifs with hin hnin hexists
    · exact (readSet_matched operator h).map fun _ _ hset _ => same_oneOf path hset
    · exact (readSet_matched operator h).map fun _ _ hset _ => same_noneOf path hset
    · refine .ok fun hzero doc => ?_
      rw [asksPresence_alike h (hzero hexists)]
    · exact .error _

/-- Fields of the same names with values that are alike, at each place. -/
abbrev FieldsAlike : Document → Document → Prop :=
  List.Forall₂ fun field other => field.1 = other.1 ∧ field.2.Alike other.2

/-- The reading of negations of two operands. -/
def NegationMatched (path : String) (v w : Value) : Prop :=
  Matched (fun f g => (∀ ops ops', v = .document ops → w = .document ops' →
    ZerosAlike (OperandsAt ops ops')) → Same f g) (readNegation path v) (readNegation path w)

theorem readOperators_matched {fields others : Document} (h : FieldsAlike fields others)
    (negations : ∀ field ∈ fields, ∀ w, field.2.Alike w → NegationMatched path field.2 w) :
    Matched (fun fs gs => ZerosAlike (OperandsAt fields others) → SameEach fs gs)
      (fields.mapM (readOperator path)) (others.mapM (readOperator path)) := by
  refine Matched.mapM_same h ?_
  rintro ⟨operator, v⟩ ⟨_, w⟩ hmem ⟨rfl, hvw⟩
  rw [readOperator, readOperator]
  split_ifs with hnot
  · obtain rfl : operator = "$not" := hnot
    refine (negations _ (List.of_mem_zip hmem).1 w hvw).imp fun f g hsame zeros => hsame ?_
    rintro ops ops' rfl rfl v' w' hat
    exact zeros v' w' (.negated hmem hat)
  · refine (readTest_matched path operator hvw).imp fun f g hsame zeros => hsame ?_
    rintro rfl
    exact zeros v w (.here hmem)

theorem startsWithOperator_eq {fields others : Document} (h : FieldsAlike fields others) :
    fields.startsWithOperator = others.startsWithOperator := by
  cases h with
  | nil => rfl
  | cons hfield _ => rw [Document.startsWithOperator, Document.startsWithOperator, hfield.1]

theorem ne_document_of_alike (h : v.Alike w) (hv : ∀ fields, v ≠ .document fields) :
    ∀ fields, w ≠ .document fields := by
  rintro fields rfl
  obtain ⟨others, rfl, -⟩ := h.symm.document
  exact hv others rfl

theorem readNegation_of_ne (hv : ∀ fields, v ≠ .document fields) :
    readNegation path v = .error .negatedNotOperators := by
  rw [readNegation]
  exact hv

theorem NegationMatched.of_ne (h : v.Alike w) (hv : ∀ fields, v ≠ .document fields) :
    NegationMatched path v w := by
  rw [NegationMatched, readNegation_of_ne hv, readNegation_of_ne (ne_document_of_alike h hv)]
  exact .error _

theorem readNegation_matched (path : String) (h : v.Alike w) : NegationMatched path v w := by
  induction v using Value.induction generalizing w with
  | atom v hatom =>
    refine .of_ne h fun fields e => ?_
    subst e
    cases hatom
  | array items _ => exact .of_ne h nofun
  | scope code fields _ => exact .of_ne h nofun
  | document fields ih =>
    obtain ⟨others, rfl, hfields⟩ := h.document
    rw [NegationMatched]
    by_cases hstarts : fields.startsWithOperator = true
    · have hothers := (startsWithOperator_eq hfields).symm.trans hstarts
      rw [readNegation_document hstarts, readNegation_document hothers]
      refine (readOperators_matched hfields fun field hfield w hw => ih field hfield hw).map ?_
      exact fun fs gs hsame zeros => (hsame (zeros fields others rfl rfl)).not_allOf
    · rw [readNegation, readNegation, ← startsWithOperator_eq hfields, if_neg hstarts,
        if_neg hstarts]
      exact .error _

/-- What is no document of operators is a value that has to be equal. -/
theorem readPath_literal (path : String)
    (h : ¬ ∃ ops : Document, v = .document ops ∧ ops.startsWithOperator = true) :
    readPath path v = .ok (equality path v) := by
  unfold readPath
  split
  · rw [if_neg fun hstarts => h ⟨_, rfl, hstarts⟩]
  · rfl

theorem readPath_matched (path : String) (h : v.Alike w) :
    Matched (fun f g => (∀ ops ops' : Document, v = .document ops → w = .document ops' →
        ops.startsWithOperator = true → ZerosAlike (OperandsAt ops ops')) → Same f g)
      (readPath path v) (readPath path w) := by
  by_cases hops : ∃ ops : Document, v = .document ops ∧ ops.startsWithOperator = true
  · obtain ⟨ops, rfl, hstarts⟩ := hops
    obtain ⟨others, rfl, hfields⟩ := h.document
    have hothers := (startsWithOperator_eq hfields).symm.trans hstarts
    rw [readPath_document hstarts, readPath_document hothers]
    refine (readOperators_matched hfields fun _ _ _ hw => readNegation_matched path hw).map ?_
    exact fun fs gs hsame zeros => (hsame (zeros ops others rfl rfl hstarts)).allOf
  · have hothers : ¬ ∃ ops : Document, w = .document ops ∧ ops.startsWithOperator = true := by
      rintro ⟨others, rfl, hstarts⟩
      obtain ⟨ops, rfl, hfields⟩ := h.symm.document
      exact hops ⟨ops, rfl, (startsWithOperator_eq hfields).symm.trans hstarts⟩
    rw [readPath_literal path hops, readPath_literal path hothers]
    exact .ok fun _ => same_compare path .eq h

/-! ## Filter documents -/

/-- The reading of two values as entries under a logical operator. -/
def EntryMatched (operator : String) (v w : Value) : Prop :=
  Matched (fun f g => (∀ entry entry', v = .document entry → w = .document entry' →
    ZerosAlike (PresencesAt entry entry')) → Same f g) (readEntry operator v) (readEntry operator w)

theorem readList_array (operator : String) {items : List Value} (hne : items ≠ []) :
    readList operator (.array items) = (items.take 128).mapM (readEntry operator) := by
  rw [readList, if_neg (by simpa using hne), readEntries_eq]
  rfl

theorem readList_of_ne (operator : String) (hv : ∀ items, v ≠ .array items) :
    readList operator v = .error (.notArray operator) := by
  rw [readList]
  exact hv

theorem readEntries_matched {items items' : List Value} (h : List.Forall₂ Alike items items')
    (entries : ∀ v ∈ items, ∀ w, v.Alike w → EntryMatched operator v w) :
    Matched (fun fs gs => (∀ entry entry', (.document entry, .document entry') ∈ items.zip items' →
        ZerosAlike (PresencesAt entry entry')) → SameEach fs gs)
      (items.mapM (readEntry operator)) (items'.mapM (readEntry operator)) := by
  refine Matched.mapM_same h fun v w hmem hvw => ?_
  refine (entries v (List.of_mem_zip hmem).1 w hvw).imp fun f g hsame zeros => hsame ?_
  rintro entry entry' rfl rfl
  exact zeros entry entry' hmem

theorem readList_matched (h : v.Alike w)
    (entries : ∀ items, v = .array items → ∀ x ∈ items, ∀ y, x.Alike y →
      EntryMatched operator x y) :
    Matched (fun fs gs => (∀ items items' entry entry', v = .array items → w = .array items' →
        (.document entry, .document entry') ∈ (items.take 128).zip (items'.take 128) →
          ZerosAlike (PresencesAt entry entry')) → SameEach fs gs)
      (readList operator v) (readList operator w) := by
  by_cases hv : ∃ items, v = .array items
  · obtain ⟨items, rfl⟩ := hv
    obtain ⟨items', rfl, hitems⟩ := h.array
    by_cases hne : items = []
    · subst hne
      obtain rfl := List.forall₂_nil_left_iff.1 hitems
      rw [readList]
      exact .error _
    · have hne' : items' ≠ [] := by
        rintro rfl
        exact hne (List.forall₂_nil_right_iff.1 hitems)
      rw [readList_array operator hne, readList_array operator hne']
      refine (readEntries_matched (List.forall₂_take 128 hitems) fun x hx => ?_).imp ?_
      · exact entries items rfl x (List.mem_of_mem_take hx)
      · intro fs gs hsame zeros
        exact hsame fun entry entry' => zeros items items' entry entry' rfl rfl
  · have hw : ∀ items, w ≠ .array items := by
      rintro items rfl
      obtain ⟨items', rfl, -⟩ := h.symm.array
      exact hv ⟨items', rfl⟩
    rw [readList_of_ne operator fun items e => hv ⟨items, e⟩, readList_of_ne operator hw]
    exact .error _

theorem readClauses_matched {fields others : Document} (h : FieldsAlike fields others)
    (entries : ∀ field ∈ fields, ∀ items, field.2 = .array items → ∀ v ∈ items,
      ∀ operator w, v.Alike w → EntryMatched operator v w) :
    Matched (fun fs gs => ZerosAlike (PresencesAt fields others) → SameEach fs gs)
      (fields.mapM readClause) (others.mapM readClause) := by
  refine Matched.mapM_same h ?_
  rintro ⟨key, v⟩ ⟨_, w⟩ hmem ⟨rfl, hvw⟩
  rw [readClause, readClause]
  cases hc : combination? key with
  | some combine =>
    have hlist := readList_matched hvw fun items hitems x hx =>
      entries _ (List.of_mem_zip hmem).1 items hitems x hx key
    refine hlist.map fun fs gs hsame zeros => SameEach.combination hc (hsame ?_)
    rintro items items' entry entry' rfl rfl hentry v' w' hat
    exact zeros v' w' (.entry hmem (mem_logical_of_combination? hc) hentry hat)
  | none =>
    split_ifs
    · exact .error _
    · refine (readPath_matched key hvw).imp fun f g hsame zeros => hsame ?_
      rintro ops ops' rfl rfl hstarts v' w' hat
      exact zeros v' w' (.path hmem hstarts hat)

theorem ofDocument_matched {fields others : Document} (h : FieldsAlike fields others)
    (entries : ∀ field ∈ fields, ∀ items, field.2 = .array items → ∀ v ∈ items,
      ∀ operator w, v.Alike w → EntryMatched operator v w) :
    Matched (fun f g => ZerosAlike (PresencesAt fields others) → Same f g)
      (ofDocument fields) (ofDocument others) := by
  rw [ofDocument, ofDocument, h.length_eq, readClauses_eq, readClauses_eq]
  split_ifs
  · exact .error _
  · exact (readClauses_matched h entries).map fun fs gs hsame zeros => (hsame zeros).allOf

theorem readEntry_of_ne (hv : ∀ fields, v ≠ .document fields) :
    readEntry operator v = .error (.entryNotDocument operator) := by
  rw [readEntry]
  exact hv

theorem EntryMatched.of_ne (h : v.Alike w) (hv : ∀ fields, v ≠ .document fields) :
    EntryMatched operator v w := by
  rw [EntryMatched, readEntry_of_ne hv, readEntry_of_ne (ne_document_of_alike h hv)]
  exact .error _

/-- The induction goes through two levels at once: a document is an entry, and its fields are read
through the entries of the arrays in it. -/
theorem readEntry_matched (v : Value) :
    (∀ operator w, v.Alike w → EntryMatched operator v w) ∧
      ∀ items, v = .array items → ∀ x ∈ items, ∀ operator y, x.Alike y →
        EntryMatched operator x y := by
  induction v using Value.induction with
  | atom v hatom =>
    refine ⟨fun operator w h => .of_ne h fun fields e => ?_, fun items e => ?_⟩
    all_goals
      subst e
      cases hatom
  | scope code fields _ => exact ⟨fun operator w h => .of_ne h nofun, nofun⟩
  | array items ih =>
    refine ⟨fun operator w h => .of_ne h nofun, ?_⟩
    rintro _ ⟨⟩ x hx
    exact (ih x hx).1
  | document fields ih =>
    refine ⟨fun operator w h => ?_, nofun⟩
    obtain ⟨others, rfl, hfields⟩ := h.document
    simp only [EntryMatched, readEntry_document]
    refine (ofDocument_matched hfields fun field hfield => (ih field hfield).2).imp ?_
    exact fun f g hsame zeros => hsame (zeros fields others rfl rfl)

/-- **Equal filter documents are read alike, but for decimal zeros.** Two filter documents are equal
and name no field twice. They are refused with the same faults and read where the other is. The
filters that are read are fulfilled by the same documents, unless two operands of tests of presence
at one place are equal and just one of them is a decimal zero. -/
theorem ofDocument_reworded {fields others : Document}
    (unique : (Value.document fields).uniqueKeys = true)
    (unique' : (Value.document others).uniqueKeys = true)
    (equal : (Value.document fields).equal (.document others) = true) :
    (∀ fault, ofDocument fields = .error fault ↔ ofDocument others = .error fault) ∧
      ((∃ f, ofDocument fields = .ok f) ↔ ∃ g, ofDocument others = .ok g) ∧
      ((∀ v w, PresencesAt fields others v w → v.isDecimalZero = w.isDecimalZero) →
        ∀ f g, ofDocument fields = .ok f → ofDocument others = .ok g →
          ∀ doc, f.fulfilledBy doc = g.fulfilledBy doc) := by
  have halike : (Value.document fields).Alike (.document others) := ⟨unique, unique', equal⟩
  have hmatched : Matched (fun f g => ZerosAlike (PresencesAt fields others) → Same f g)
      (ofDocument fields) (ofDocument others) := by
    obtain ⟨_, ⟨⟩, hfields⟩ := halike.document
    exact ofDocument_matched hfields fun field _ => (readEntry_matched field.2).2
  generalize ofDocument fields = reading, ofDocument others = reading' at hmatched
  cases hmatched with
  | error fault =>
    exact ⟨fun _ => Iff.rfl, ⟨(fun ⟨_, h⟩ => nomatch h), fun ⟨_, h⟩ => nomatch h⟩, nofun⟩
  | ok hsame =>
    refine ⟨fun _ => ⟨nofun, nofun⟩, ⟨fun _ => ⟨_, rfl⟩, fun _ => ⟨_, rfl⟩⟩, ?_⟩
    rintro zeros _ _ ⟨⟩ ⟨⟩
    exact hsame zeros

/-- One in four kinds, in a comparison and in a test of presence. -/
theorem ofDocument_reworded_one :
    ∃ f g,
      ofDocument [("a", .document [("$gte", .int 1), ("$exists", .long 1)])] = .ok f ∧
      ofDocument [("a", .document [("$gte", .double ⟨0x3ff0000000000000⟩),
        ("$exists", .decimal (.finite false 10 (-1)))])] = .ok g ∧
      ∀ doc, f.fulfilledBy doc = g.fulfilledBy doc := by
  have unique : (Value.document [("a", .document [("$gte", .int 1),
      ("$exists", .long 1)])]).uniqueKeys = true := by decide
  have unique' : (Value.document [("a", .document [("$gte", .double ⟨0x3ff0000000000000⟩),
      ("$exists", .decimal (.finite false 10 (-1)))])]).uniqueKeys = true := by decide
  obtain ⟨-, -, hsame⟩ := ofDocument_reworded unique unique' (by decide +kernel)
  refine ⟨_, _, rfl, rfl, hsame ?_ _ _ rfl rfl⟩
  rintro v w (⟨hmem, -, hat⟩ | ⟨hmem, -, -, -⟩)
  · cases List.mem_singleton.1 hmem
    rcases hat with hmem | ⟨hmem, -⟩
    · obtain ⟨rfl, rfl⟩ : v = .long 1 ∧ w = .decimal (.finite false 10 (-1)) := by simpa using hmem
      decide +kernel
    · simp at hmem
  · simp at hmem

/-- The kind of a number may change what a filter selects: a test of presence asks for absence with
the integer zero and for presence with the decimal zero. -/
theorem ofDocument_reworded_fails :
    ¬ ∀ fields others : Document, (Value.document fields).uniqueKeys = true →
        (Value.document others).uniqueKeys = true →
          (Value.document fields).equal (.document others) = true →
            ∀ f g, ofDocument fields = .ok f → ofDocument others = .ok g →
              ∀ doc, f.fulfilledBy doc = g.fulfilledBy doc := by
  intro h
  have hsame := h [("a", .document [("$exists", .int 0)])]
    [("a", .document [("$exists", .decimal (.finite false 0 0))])] (by decide) (by decide)
    (by decide +kernel) (presence "a" false) (presence "a" true) rfl rfl []
  cases hsame

end Filter

end DocStore
