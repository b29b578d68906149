import DocStore.Cursor

/-!
# Cursors and their copies

Cursors over one answer are read from in any order. A cursor can be copied wherever it stands, and
the copy is read from like any other.

* `Reader` is a cursor with what it has given so far; what the cursor that it is a copy of gave
  before it was copied is included. `Reader.step` is one `Operation` on one of several readers,
  `Reader.run` several.
* `Reader.told` says what a reader answers, from the documents of the answer and the number of those
  that it has given. `Reader.run_told` says that readers answer as told, whatever is done with them.
* `Reader.answersTo_run` says that a reader answers as if it were the only one that is read from,
  `Reader.given_run` that it gives what is still to come, in order and each document once.
* `Reader.run_reads` is the main statement.
-/

namespace DocStore

/-! ## Readers -/

/-- A cursor with the documents that it has given so far, and those that the cursor it is a copy of
had given before. -/
structure Reader where
  cursor : Cursor
  given : List Document

namespace Reader

/-- What can be asked of a reader. -/
inductive Act where
  | next
  | remaining
  | sizeBounds
  /-- A copy, which is a further reader. -/
  | copy
  /-- All documents still to come. The reader is used up. -/
  | rest

/-- What a reader answers to an operation. -/
inductive Answer where
  | document (doc : Option Document)
  | count (n : Nat)
  | bounds (lower upper : Nat)
  | copied
  | documents (docs : List Document)
  /-- There is no such reader, or it has been used up. -/
  | absent

/-- The documents that come out with an answer. -/
def Answer.given : Answer → List Document
  | document doc => doc.toList
  | documents docs => docs
  | _ => []

/-- A reader of an answer from its first document on. -/
def ofList (docs : List Document) : Reader := ⟨.ofList docs, []⟩

/-- What a reader answers, and what it is afterwards unless it is used up. -/
def act (r : Reader) : Act → Answer × Option Reader
  | .next =>
    let (doc, cursor) := r.cursor.next
    (.document doc, some ⟨cursor, r.given ++ doc.toList⟩)
  | .remaining => (.count r.cursor.remaining, some r)
  | .sizeBounds => (.bounds r.cursor.sizeBounds.1 r.cursor.sizeBounds.2, some r)
  | .copy => (.copied, some r)
  | .rest => (.documents r.cursor.rest, none)

/-- What a reader of documents answers that has given `n` of them, and how many it has given
afterwards. -/
def told (docs : List Document) (n : Nat) : Act → Answer × Option Nat
  | .next => (.document docs[n]?, some (if n < docs.length then n + 1 else n))
  | .remaining => (.count (docs.length - n), some n)
  | .sizeBounds => (.bounds (docs.length - n) (docs.length - n), some n)
  | .copy => (.copied, some n)
  | .rest => (.documents (docs.drop n), none)

/-! ## Several readers -/

/-- What is asked of which reader. Readers are numbered as they came into being. -/
structure Operation where
  reader : Nat
  act : Act

section

variable {α : Type}

/-- The further readers that come of what is asked of one. -/
def copies (r : α) : Act → List (Option α)
  | .copy => [some r]
  | _ => []

/-- One operation on readers that answer in some way. One that is used up leaves its number
vacant. -/
def step (act : α → Act → Answer × Option α) (readers : List (Option α)) (op : Operation) :
    Answer × List (Option α) :=
  match readers[op.reader]? with
  | some (some r) =>
    let (answer, after) := act r op.act
    (answer, readers.set op.reader after ++ copies r op.act)
  | _ => (.absent, readers)

/-- Operations one after the other, with what they answer. -/
def run (act : α → Act → Answer × Option α) (readers : List (Option α)) :
    List Operation → List Answer × List (Option α)
  | [] => ([], readers)
  | op :: ops =>
    let (answer, readers) := step act readers op
    let (answers, readers) := run act readers ops
    (answer :: answers, readers)

/-- What one reader answers among operations. -/
def answersTo (i : Nat) : List Operation → List Answer → List Answer
  | op :: ops, answer :: answers =>
    if op.reader = i then answer :: answersTo i ops answers else answersTo i ops answers
  | _, _ => []

variable {act : α → Act → Answer × Option α} {readers others : List (Option α)} {op : Operation}
  {i : Nat} {r : α}

theorem run_cons (act : α → Act → Answer × Option α) (readers : List (Option α)) (op : Operation)
    (ops : List Operation) :
    run act readers (op :: ops) =
      ((step act readers op).1 :: (run act (step act readers op).2 ops).1,
        (run act (step act readers op).2 ops).2) := rfl

theorem step_some (h : readers[op.reader]? = some (some r)) :
    step act readers op =
      ((act r op.act).1, readers.set op.reader (act r op.act).2 ++ copies r op.act) := by
  rw [step, h]

theorem step_absent (h : readers[op.reader]?.join = none) :
    step act readers op = (.absent, readers) := by
  rw [step]
  split
  · rename_i r hr
    rw [hr] at h
    cases h
  · rfl

theorem length_le_step (act : α → Act → Answer × Option α) (readers : List (Option α))
    (op : Operation) : readers.length ≤ (step act readers op).2.length := by
  rw [step]
  split
  · simp
  · exact Nat.le_refl _

/-- What is asked of one reader leaves another one as it is. -/
theorem getElem?_step_of_ne (hne : op.reader ≠ i) (hi : i < readers.length) :
    (step act readers op).2[i]? = readers[i]? := by
  rw [step]
  split
  · rw [List.getElem?_append_left (by simpa using hi), List.getElem?_set_ne hne]
  · rfl

/-- What a reader answers, and what becomes of it, depends on the reader alone. -/
theorem step_congr (act : α → Act → Answer × Option α) (hi : op.reader < readers.length)
    (ho : op.reader < others.length) (h : readers[op.reader]? = others[op.reader]?) :
    (step act readers op).1 = (step act others op).1 ∧
      (step act readers op).2[op.reader]? = (step act others op).2[op.reader]? := by
  rw [step, step, ← h]
  split
  · refine ⟨rfl, ?_⟩
    rw [List.getElem?_append_left (by simpa using hi),
      List.getElem?_append_left (by simpa using ho), List.getElem?_set_self hi,
      List.getElem?_set_self ho]
  · exact ⟨rfl, h⟩

/-- **A reader answers as if it were the only one that is read from.** -/
theorem answersTo_run (hi : i < readers.length) (ho : i < others.length)
    (h : readers[i]? = others[i]?) (ops : List Operation) :
    answersTo i ops (run act readers ops).1 =
      (run act others (ops.filter (·.reader = i))).1 := by
  induction ops generalizing readers others with
  | nil => rfl
  | cons op ops ih =>
    have hlt := Nat.lt_of_lt_of_le hi (length_le_step act readers op)
    rw [run_cons, answersTo]
    by_cases hop : op.reader = i
    · subst hop
      obtain ⟨hanswer, hafter⟩ := step_congr act hi ho h
      have hlt' := Nat.lt_of_lt_of_le ho (length_le_step act others op)
      rw [if_pos rfl, List.filter_cons_of_pos (by simp), run_cons, hanswer, ih hlt hlt' hafter]
    · rw [if_neg hop, List.filter_cons_of_neg (by simpa using hop)]
      exact ih hlt ho ((getElem?_step_of_ne hop hi).trans h)

end

/-! ## What a reader gives -/

section

variable {docs : List Document} {r : Reader} {readers : List (Option Reader)}

/-- What a reader has given and what is still to come are the documents of the answer. -/
def Reads (docs : List Document) (r : Reader) : Prop := r.given ++ r.cursor.rest = docs

theorem Reads.drop_given (h : r.Reads docs) : docs.drop r.given.length = r.cursor.rest := by
  rw [← h, List.drop_left]

theorem Reads.getElem?_given (h : r.Reads docs) : docs[r.given.length]? = r.cursor.rest.head? := by
  rw [← h.drop_given, List.head?_drop]

theorem Reads.remaining (h : r.Reads docs) : r.cursor.remaining = docs.length - r.given.length := by
  simp [← h.drop_given]

/-- One act of a reader: it gives from the front of what is still to come. -/
theorem given_act (r : Reader) (act : Act) :
    ∃ left, (r.act act).1.given ++ left = r.cursor.rest ∧
      ∀ r', (r.act act).2 = some r' →
        r'.cursor.rest = left ∧ r'.given = r.given ++ (r.act act).1.given := by
  cases act with
  | next =>
    refine ⟨r.cursor.rest.tail, ?_, ?_⟩
    · show r.cursor.next.1.toList ++ _ = _
      rw [Cursor.next_fst]
      cases r.cursor.rest <;> rfl
    · rintro _ ⟨⟩
      exact ⟨r.cursor.rest_next, rfl⟩
  | rest => exact ⟨[], List.append_nil _, nofun⟩
  | remaining | sizeBounds | copy =>
    refine ⟨r.cursor.rest, rfl, ?_⟩
    rintro _ ⟨⟩
    exact ⟨rfl, (List.append_nil _).symm⟩

theorem Reads.act (h : r.Reads docs) (act : Act) {r' : Reader} (hr : (r.act act).2 = some r') :
    r'.Reads docs := by
  obtain ⟨left, hleft, hafter⟩ := given_act r act
  obtain ⟨hrest, hgiven⟩ := hafter r' hr
  rw [Reads, hgiven, hrest, List.append_assoc, hleft, h]

/-- A reader answers as is told of one that has given as many documents. -/
theorem Reads.act_told (h : r.Reads docs) (act : Act) :
    told docs r.given.length act =
      ((r.act act).1, (r.act act).2.map fun r' => r'.given.length) := by
  cases act with
  | next =>
    have hnext : r.cursor.next.1 = docs[r.given.length]? := by
      simp [h.getElem?_given]
    rw [told, Reader.act]
    refine Prod.ext (congrArg Answer.document hnext.symm) (congrArg some ?_)
    show _ = (r.given ++ r.cursor.next.1.toList).length
    rw [List.length_append, hnext]
    by_cases hlt : r.given.length < docs.length
    · simp [hlt]
    · simp [hlt]
  | remaining => rw [told, Reader.act, h.remaining]; rfl
  | sizeBounds => rw [told, Reader.act, Cursor.sizeBounds, h.remaining]; rfl
  | copy => rfl
  | rest => rw [told, Reader.act, h.drop_given]; rfl

end

/-! ## Runs -/

section

variable {docs : List Document} {readers : List (Option Reader)} {i : Nat}

/-- How many documents each reader has given. -/
def counts (readers : List (Option Reader)) : List (Option Nat) :=
  readers.map (Option.map fun r => r.given.length)

@[simp] theorem getElem?_counts (readers : List (Option Reader)) (i : Nat) :
    (counts readers)[i]? = readers[i]?.map (Option.map fun r => r.given.length) :=
  List.getElem?_map

theorem counts_step {r : Reader} {op : Operation} (h : readers[op.reader]? = some (some r)) :
    counts (step Reader.act readers op).2 =
      (counts readers).set op.reader ((r.act op.act).2.map fun r' => r'.given.length) ++
        copies r.given.length op.act := by
  rw [step_some h, counts, counts, List.map_append, List.map_set]
  cases op.act <;> rfl

/-- One operation on readers of the documents of an answer. -/
theorem step_told (h : ∀ r, some r ∈ readers → r.Reads docs) (op : Operation) :
    step (told docs) (counts readers) op =
        ((step Reader.act readers op).1, counts (step Reader.act readers op).2) ∧
      ∀ r, some r ∈ (step Reader.act readers op).2 → r.Reads docs := by
  cases hop : readers[op.reader]?.join with
  | none =>
    have hcount : (counts readers)[op.reader]?.join = none := by
      rw [getElem?_counts]
      cases hget : readers[op.reader]? with
      | none => rfl
      | some x =>
        rw [hget] at hop
        exact congrArg (Option.map _) hop
    rw [step_absent hcount, step_absent hop]
    exact ⟨rfl, h⟩
  | some r =>
    rw [Option.join_eq_some_iff] at hop
    have hr : r.Reads docs := h r (List.mem_of_getElem? hop)
    have hcount : (counts readers)[op.reader]? = some (some r.given.length) := by
      simp [hop]
    rw [step_some hcount, counts_step hop, step_some hop, hr.act_told]
    refine ⟨rfl, fun r' hr' => ?_⟩
    rcases List.mem_append.1 hr' with hset | hcopy
    · rcases List.mem_or_eq_of_mem_set hset with hold | hnew
      · exact h r' hold
      · exact hr.act op.act hnew.symm
    · cases op with
      | mk _ act =>
        cases act with
        | copy =>
          cases List.mem_singleton.1 hcopy
          exact hr
        | next | remaining | sizeBounds | rest => cases hcopy

/-- **Readers answer as told**, whatever is done with them. -/
theorem run_told (h : ∀ r, some r ∈ readers → r.Reads docs) (ops : List Operation) :
    run (told docs) (counts readers) ops =
        ((run Reader.act readers ops).1, counts (run Reader.act readers ops).2) ∧
      ∀ r, some r ∈ (run Reader.act readers ops).2 → r.Reads docs := by
  induction ops generalizing readers with
  | nil => exact ⟨rfl, h⟩
  | cons op ops ih =>
    obtain ⟨hstep, hreads⟩ := step_told h op
    obtain ⟨hrun, hreads'⟩ := ih hreads
    refine ⟨?_, hreads'⟩
    rw [run_cons, run_cons, hstep]
    simp only [hrun]

/-- The documents that a reader has still to give; none where it is used up. -/
def pending (reader : Option Reader) : List Document :=
  (reader.map fun r => r.cursor.rest).getD []

/-- What comes out of a reader among any operations is in order the first of what it has still to
give. -/
theorem given_run {reader : Option Reader} (h : readers[i]? = some reader) (ops : List Operation) :
    (answersTo i ops (run Reader.act readers ops).1).flatMap Answer.given <+: pending reader := by
  induction ops generalizing readers reader with
  | nil => exact List.nil_prefix
  | cons op ops ih =>
    rw [run_cons, answersTo]
    by_cases hop : op.reader = i
    · subst hop
      rw [if_pos rfl, List.flatMap_cons]
      cases reader with
      | none =>
        rw [step_absent (by rw [h]; rfl)]
        exact ih h
      | some r =>
        obtain ⟨left, hleft, hafter⟩ := given_act r op.act
        have hi : op.reader < readers.length := (List.getElem?_eq_some_iff.1 h).1
        have hget : (step Reader.act readers op).2[op.reader]? = some (r.act op.act).2 := by
          rw [step_some h, List.getElem?_append_left (by simpa using hi), List.getElem?_set_self hi]
        have hpending : pending (r.act op.act).2 <+: left := by
          cases hact : (r.act op.act).2 with
          | none => exact List.nil_prefix
          | some r' =>
            rw [← (hafter r' hact).1]
            exact List.prefix_rfl
        have hanswer : (step Reader.act readers op).1 = (r.act op.act).1 := by rw [step_some h]
        rw [hanswer]
        show _ <+: r.cursor.rest
        rw [← hleft]
        exact (List.prefix_append_right_inj _).2 ((ih hget).trans hpending)
    · rw [if_neg hop]
      have hi : i < readers.length := (List.getElem?_eq_some_iff.1 h).1
      exact ih ((getElem?_step_of_ne hop hi).trans h)

/-- A reader that is asked for nothing but the next document gives all it has still to give, one
after the other, and then none. -/
theorem run_next {r : Reader} (h : readers[i]? = some (some r)) (k : Nat) :
    (run Reader.act readers (List.replicate k ⟨i, .next⟩)).1 =
      (List.range k).map fun j => .document r.cursor.rest[j]? := by
  induction k generalizing readers r with
  | zero => rfl
  | succ k ih =>
    have hi : i < readers.length := (List.getElem?_eq_some_iff.1 h).1
    have hstep : step Reader.act readers ⟨i, .next⟩ =
        ((r.act .next).1, readers.set i (r.act .next).2 ++ []) := step_some h
    have hget : (step Reader.act readers ⟨i, .next⟩).2[i]? = some (r.act .next).2 := by
      rw [hstep, List.getElem?_append_left (by simpa using hi), List.getElem?_set_self hi]
    have hfirst : (step Reader.act readers ⟨i, .next⟩).1 = .document r.cursor.rest[0]? := by
      rw [hstep, ← List.head?_eq_getElem?, ← Cursor.next_fst]
      rfl
    simp only [List.replicate_succ, run_cons, ih hget, List.range_succ_eq_map, List.map_cons,
      List.map_map, hfirst]
    refine congrArg (_ :: ·) (List.map_congr_left fun j _ => ?_)
    show Answer.document r.cursor.next.2.rest[j]? = _
    rw [Cursor.rest_next, List.getElem?_tail]
    rfl

/-- **What cursors over one answer do**, the first of them and its copies. They answer as is told of
readers that have given as many documents. What a reader has given and what it has still to give are
the documents of the answer, and it counts the latter. Whatever else is asked meanwhile, it answers
as it would alone, and what comes out of it is in order the first of what it has still to give;
asked for the next one again and again it gives all of it, and then none. -/
theorem run_reads (docs : List Document) (ops : List Operation) :
    let readers := (run act [some (ofList docs)] ops).2
    (run act [some (ofList docs)] ops).1 = (run (told docs) [some 0] ops).1 ∧
      ∀ i r, readers[i]? = some (some r) →
        r.given ++ r.cursor.rest = docs ∧
        r.cursor.remaining = r.cursor.rest.length ∧
        r.cursor.sizeBounds = (r.cursor.rest.length, r.cursor.rest.length) ∧
        (∀ more, answersTo i more (run act readers more).1 =
          (run act readers (more.filter (·.reader = i))).1) ∧
        (∀ more,
          (answersTo i more (run act readers more).1).flatMap Answer.given <+: r.cursor.rest) ∧
        ∀ k, (run act readers (List.replicate k ⟨i, .next⟩)).1 =
          (List.range k).map fun j => .document r.cursor.rest[j]? := by
  intro readers
  have hfirst : ∀ r, some r ∈ [some (ofList docs)] → r.Reads docs := by
    intro r hr
    cases List.mem_singleton.1 hr
    rfl
  obtain ⟨hrun, hreads⟩ := run_told hfirst ops
  refine ⟨(congrArg Prod.fst hrun).symm, fun i r hi => ?_⟩
  have hlt : i < readers.length := (List.getElem?_eq_some_iff.1 hi).1
  refine ⟨hreads r (List.mem_of_getElem? hi), r.cursor.remaining_eq, ?_,
    answersTo_run hlt hlt rfl, given_run hi, run_next hi⟩
  simp [Cursor.sizeBounds]

/-- A copy taken on the way goes on from there, and the first reader from where it stands. -/
example :
    (run act [some (ofList [[("a", .null)], [("b", .null)]])]
      [⟨0, .next⟩, ⟨0, .copy⟩, ⟨0, .next⟩, ⟨0, .next⟩, ⟨1, .next⟩]).1 =
      [.document (some [("a", .null)]), .copied, .document (some [("b", .null)]), .document none,
        .document (some [("b", .null)])] := rfl

end

end Reader

end DocStore
