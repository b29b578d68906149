import DocStore.Proofs.Registry
import DocStore.Proofs.Requests

/-!
# Configurations that are refused

A configuration is checked option by option, and the first check that fails is reported, whatever
else is wrong.

* `Options.TextFault`, `Options.PathFault` and `Options.UnknownFault` say what can be wrong with
  options, each with the fault that is reported, and `Options.textKind` and `Options.pathKind` of
  which kind it is, read off what stands at the option. One lemma for each reader of options
  follows.
* `Lookup.Check` is a check of a configuration and `Lookup.Check.Refuses` says what it can fail
  with, `Lookup.Check.kind` and `Lookup.Check.Concerns` of which kind the fault is and which option
  it reports; `Lookup.read_eq_checks` says that reading a configuration is making the checks in
  order.
* `Lookup.Writes` is what a configuration that is accepted looks like.
* `Lookup.build_reports` is the main statement, with the calls that are made for the source.
-/

namespace DocStore

/-! ## Options -/

namespace Options

/-- What can be wrong with an option that has to be a text. -/
inductive TextFault (configuration : Document) (stage key : String) : SpecificationFault → Prop
  | absent : configuration.get? key = none →
    TextFault configuration stage key (.missingOption stage key configuration)
  | null : configuration.get? key = some .null →
    TextFault configuration stage key (.missingOption stage key configuration)
  | wrongType {v : Value} : configuration.get? key = some v → v ≠ .null → (∀ s, v ≠ .string s) →
    TextFault configuration stage key (.wrongType stage key v.typeName)

/-- What can be wrong with an option that has to be a path. -/
inductive PathFault (configuration : Document) (stage key : String) : SpecificationFault → Prop
  | text {fault : SpecificationFault} : TextFault configuration stage key fault →
    PathFault configuration stage key fault
  | long {path : String} : configuration.get? key = some (.string path) →
    32 < (Path.segments path).length →
    PathFault configuration stage key (.longPath stage key path 32)

/-- An option that is unknown, all before it being known. -/
inductive UnknownFault (configuration : Document) (stage : String) (known : List String) :
    SpecificationFault → Prop
  | first {before : List String} {key : String} {after : List String} :
    configuration.keys = before ++ key :: after → (∀ k ∈ before, k ∈ known) → key ∉ known →
    UnknownFault configuration stage known (.unknownOption stage key)

/-- The kind of what is wrong with what stands at an option that has to be a text: null is as good
as nothing. -/
def textKind : Option Value → SpecificationFault.Kind
  | none | some .null => .missingOption
  | some _ => .wrongType

/-- The kind of what is wrong with what stands at an option that has to be a path. Of a text it can
only be that it is too long. -/
def pathKind : Option Value → SpecificationFault.Kind
  | some (.string _) => .invalidPath
  | value => textKind value

variable {configuration : Document} {stage key : String} {fault : SpecificationFault}

theorem textKind_of_ne_null {v : Value} (hnull : v ≠ .null) : textKind (some v) = .wrongType := by
  cases v with
  | null => exact absurd rfl hnull
  | _ => rfl

theorem pathKind_of_ne_string {value : Option Value} (h : ∀ s, value ≠ some (.string s)) :
    pathKind value = textKind value := by
  unfold pathKind
  split
  · exact absurd rfl (h _)
  · rfl

theorem TextFault.ne_string (h : TextFault configuration stage key fault) (s : String) :
    configuration.get? key ≠ some (.string s) := by
  cases h with
  | absent hget | null hget => simp [hget]
  | wrongType hget _ hstring => simpa [hget] using hstring s

theorem TextFault.kind_eq (h : TextFault configuration stage key fault) :
    fault.kind = textKind (configuration.get? key) := by
  cases h with
  | absent hget | null hget => rw [hget]; rfl
  | wrongType hget hnull _ => rw [hget, textKind_of_ne_null hnull]; rfl

theorem PathFault.kind_eq (h : PathFault configuration stage key fault) :
    fault.kind = pathKind (configuration.get? key) := by
  cases h with
  | text h => rw [pathKind_of_ne_string h.ne_string, h.kind_eq]
  | long hget _ => rw [hget]; rfl

theorem UnknownFault.kind_eq {known : List String}
    (h : UnknownFault configuration stage known fault) : fault.kind = .unknownOption := by
  cases h with
  | first _ _ _ => rfl

theorem TextFault.key_eq (h : TextFault configuration stage key fault) : fault.key = key := by
  cases h <;> rfl

theorem PathFault.key_eq (h : PathFault configuration stage key fault) : fault.key = key := by
  cases h with
  | text h => exact h.key_eq
  | long _ _ => rfl

/-- The key of an unknown option is the first that is unknown. -/
theorem UnknownFault.key_first {known : List String}
    (h : UnknownFault configuration stage known fault) :
    ∃ before after, configuration.keys = before ++ fault.key :: after ∧
      (∀ k ∈ before, k ∈ known) ∧ fault.key ∉ known := by
  cases h with
  | first hkeys hbefore hkey => exact ⟨_, _, hkeys, hbefore, hkey⟩

/-! ### The readers of options -/

theorem text_eq_ok_iff {s : String} :
    text configuration stage key = .ok s ↔ configuration.get? key = some (.string s) := by
  constructor
  · exact text_eq_ok
  · intro h
    rw [text, h]

theorem text_eq_error_iff :
    text configuration stage key = .error fault ↔ TextFault configuration stage key fault := by
  constructor
  · intro h
    unfold text at h
    split at h
    · cases h
      exact .absent ‹_›
    · cases h
      exact .null ‹_›
    · cases h
    · rename_i hnull hstring hget
      cases h
      exact .wrongType hget hnull hstring
  · rintro (h | h | ⟨h, hnull, hstring⟩)
    · rw [text, h]
    · rw [text, h]
    · rename_i v
      rw [text, h]
      cases v with
      | null => exact absurd rfl hnull
      | string s => exact absurd rfl (hstring s)
      | _ => rfl

theorem path_of_ok {p : String} (h : text configuration stage key = .ok p) :
    path configuration stage key =
      if 32 < (Path.segments p).length then .error (.longPath stage key p 32) else .ok p := by
  rw [path, h]
  rfl

theorem path_of_error (h : text configuration stage key = .error fault) :
    path configuration stage key = .error fault := by
  rw [path, h]
  rfl

theorem path_eq_ok_iff {p : String} :
    path configuration stage key = .ok p ↔
      configuration.get? key = some (.string p) ∧ (Path.segments p).length ≤ 32 := by
  constructor
  · intro h
    cases htext : text configuration stage key with
    | error fault =>
      rw [path_of_error htext] at h
      cases h
    | ok q =>
      rw [path_of_ok htext] at h
      split_ifs at h with hlong
      cases h
      exact ⟨text_eq_ok htext, by omega⟩
  · rintro ⟨h, hle⟩
    rw [path_of_ok (text_eq_ok_iff.2 h), if_neg (by omega)]

theorem path_eq_error_iff :
    path configuration stage key = .error fault ↔ PathFault configuration stage key fault := by
  constructor
  · intro h
    cases htext : text configuration stage key with
    | error fault' =>
      rw [path_of_error htext] at h
      cases h
      exact .text (text_eq_error_iff.1 htext)
    | ok p =>
      rw [path_of_ok htext] at h
      split_ifs at h with hlong
      cases h
      exact .long (text_eq_ok htext) hlong
  · rintro (h | ⟨h, hlong⟩)
    · exact path_of_error (text_eq_error_iff.2 h)
    · rw [path_of_ok (text_eq_ok_iff.2 h), if_pos hlong]

theorem onlyKnown_eq_ok_iff {known : List String} :
    onlyKnown configuration stage known = .ok () ↔ ∀ key ∈ configuration.keys, key ∈ known := by
  unfold onlyKnown
  split
  · rename_i key hkey
    have hmem := List.mem_of_find?_eq_some hkey
    have hunknown : key ∉ known := by simpa using List.find?_some hkey
    simp only [reduceCtorEq, false_iff]
    exact fun h => hunknown (h key hmem)
  · rename_i hnone
    simpa using hnone

theorem onlyKnown_eq_error_iff {known : List String} :
    onlyKnown configuration stage known = .error fault ↔
      UnknownFault configuration stage known fault := by
  unfold onlyKnown
  constructor
  · intro h
    split at h
    · rename_i key hkey
      cases h
      obtain ⟨hunknown, before, after, hkeys, hbefore⟩ := List.find?_eq_some_iff_append.1 hkey
      exact .first hkeys (by simpa using hbefore) (by simpa using hunknown)
    · cases h
  · intro h
    cases h with
    | @first before key after hkeys hbefore hkey =>
      have hfind : (configuration.keys.find? fun key => !known.contains key) = some key :=
        List.find?_eq_some_iff_append.2
          ⟨by simpa using hkey, before, after, hkeys, by simpa using hbefore⟩
      rw [hfind]

end Options

/-! ## Checks -/

namespace Lookup

open Join

/-- A check that is made of a configuration. -/
inductive Check where
  | source
  | sourceName
  | localField
  | foreignField
  | resultField
  /-- That there is no other option. -/
  | others

namespace Check

/-- The checks in the order in which they are made. -/
def all : List Check := [source, sourceName, localField, foreignField, resultField, others]

/-- The option that a check can report. Of others that are unknown it is the first. -/
def Concerns (configuration : Document) : Check → String → Prop
  | source, key | sourceName, key => key = "from"
  | localField, key => key = "localField"
  | foreignField, key => key = "foreignField"
  | resultField, key => key = "as"
  | others, key => ∃ before after, configuration.keys = before ++ key :: after ∧
    (∀ k ∈ before, k ∈ ["from", "localField", "foreignField", "as"]) ∧
    key ∉ ["from", "localField", "foreignField", "as"]

/-- The kind of what a check finds wrong with an option. The name of the source is refused with a
failure of its own, which is of no kind. -/
def kind (configuration : Document) : Check → SpecificationFault.Kind
  | source | sourceName => Options.textKind (configuration.get? "from")
  | localField => Options.pathKind (configuration.get? "localField")
  | foreignField => Options.pathKind (configuration.get? "foreignField")
  | resultField => Options.textKind (configuration.get? "as")
  | others => .unknownOption

/-- What a check of a configuration can fail with. -/
def Refuses (configuration : Document) : Check → Failure → Prop
  | source, e => ∃ fault, Options.TextFault configuration "$lookup" "from" fault ∧
    e = .specification fault
  | sourceName, e => ∃ name, configuration.get? "from" = some (.string name) ∧
    ¬ Database.Proper name ∧ e = .invalidName name
  | localField, e => ∃ fault, Options.PathFault configuration "$lookup" "localField" fault ∧
    e = .specification fault
  | foreignField, e => ∃ fault, Options.PathFault configuration "$lookup" "foreignField" fault ∧
    e = .specification fault
  | resultField, e => ∃ fault, Options.TextFault configuration "$lookup" "as" fault ∧
    e = .specification fault
  | others, e => ∃ fault, Options.UnknownFault configuration "$lookup"
      ["from", "localField", "foreignField", "as"] fault ∧ e = .specification fault

variable {configuration : Document} {check : Check} {e : Failure}

/-- What a check reports is of its kind, and names the option that the check is about. -/
theorem Refuses.kind_concerns {fault : SpecificationFault}
    (h : check.Refuses configuration (.specification fault)) :
    fault.kind = check.kind configuration ∧ check.Concerns configuration fault.key := by
  cases check with
  | sourceName =>
    obtain ⟨name, -, -, hname⟩ := h
    cases hname
  | source | resultField | localField | foreignField =>
    obtain ⟨_, hfault, heq⟩ := h
    cases heq
    exact ⟨hfault.kind_eq, hfault.key_eq⟩
  | others =>
    obtain ⟨_, hfault, heq⟩ := h
    cases heq
    exact ⟨hfault.kind_eq, hfault.key_first⟩

/-! ### The checks as they are made -/

/-- What is read, as a check. -/
def ofReader {α : Type} (result : Except SpecificationFault α) : Except Failure Unit :=
  (result.mapError .specification).map fun _ => ()

/-- What a check comes to. There is no name to be checked where the source is no text. -/
def run (configuration : Document) : Check → Except Failure Unit
  | source => ofReader (Options.text configuration stageName "from")
  | sourceName =>
    match configuration.get? "from" with
    | some (.string name) => Plan.checkName name
    | _ => .ok ()
  | localField => ofReader (Options.path configuration stageName "localField")
  | foreignField => ofReader (Options.path configuration stageName "foreignField")
  | resultField => ofReader (Options.text configuration stageName "as")
  | others => ofReader (Options.onlyKnown configuration stageName options)

theorem ofReader_eq_error_iff {α : Type} {result : Except SpecificationFault α} :
    ofReader result = .error e ↔ ∃ fault, result = .error fault ∧ e = .specification fault := by
  cases result with
  | error fault => simp [ofReader, Except.mapError, Except.map, eq_comm]
  | ok a => simp [ofReader, Except.mapError, Except.map]

theorem checkName_eq_error_iff {name : String} :
    Plan.checkName name = .error e ↔ ¬ Database.Proper name ∧ e = .invalidName name := by
  rw [Plan.checkName, ← Database.validName_iff]
  split_ifs with hvalid <;> simp [hvalid, eq_comm]

/-- A check fails with what it can fail with. -/
theorem run_eq_error_iff : check.run configuration = .error e ↔ check.Refuses configuration e := by
  cases check with
  | source | resultField => simp only [run, ofReader_eq_error_iff, Options.text_eq_error_iff]; rfl
  | localField | foreignField =>
    simp only [run, ofReader_eq_error_iff, Options.path_eq_error_iff]
    rfl
  | others =>
    simp only [run, ofReader_eq_error_iff, Options.onlyKnown_eq_error_iff]
    rfl
  | sourceName =>
    rw [run, Refuses]
    split
    · rename_i name hname
      simp [checkName_eq_error_iff, hname]
    · rename_i hno
      refine iff_of_false (by simp) ?_
      rintro ⟨name, hname, -⟩
      exact hno name hname

theorem run_eq_ok_iff :
    (∃ u, check.run configuration = .ok u) ↔ ∀ e, ¬ check.Refuses configuration e := by
  simp only [← run_eq_error_iff]
  cases check.run configuration <;> simp

end Check

/-- Reading a plan is making the checks in their order. -/
theorem read_eq_checks (configuration : Document) :
    (Plan.read configuration).map (fun _ => ()) =
      (Check.all.mapM (Check.run configuration)).map fun _ => () := by
  simp only [Check.all, List.mapM_cons, List.mapM_nil, Check.run, Check.ofReader]
  cases hsource : Options.text configuration stageName "from" with
  | error fault =>
    rw [Plan.read_of_error hsource]
    rfl
  | ok source =>
    rw [Plan.read_of_ok hsource, Options.text_eq_ok hsource, Plan.complete]
    dsimp only
    cases Plan.checkName source with
    | error e => rfl
    | ok _ =>
      cases Options.path configuration stageName "localField" with
      | error fault => rfl
      | ok localField =>
        cases Options.path configuration stageName "foreignField" with
        | error fault => rfl
        | ok foreignField =>
          cases Options.text configuration stageName "as" with
          | error fault => rfl
          | ok resultField => cases Options.onlyKnown configuration stageName options <;> rfl

/-- A plan is refused for the first check that fails. -/
theorem read_eq_error_iff {configuration : Document} {e : Failure} :
    Plan.read configuration = .error e ↔ ∃ before check after,
      Check.all = before ++ check :: after ∧
        (∀ k ∈ before, ∀ e', ¬ k.Refuses configuration e') ∧ check.Refuses configuration e := by
  rw [← Plan.map_eq_error_iff fun _ => (), read_eq_checks, Plan.map_eq_error_iff,
    Filter.mapM_eq_error_iff]
  simp only [Check.run_eq_ok_iff, Check.run_eq_error_iff]

/-- A configuration writes a plan: its options are texts, the source has a name that a collection
may have, the fields are paths that are short enough, and there is no other option. -/
structure Writes (configuration : Document) (p : Plan) : Prop where
  source : configuration.get? "from" = some (.string p.source)
  proper : Database.Proper p.source
  localField : configuration.get? "localField" = some (.string p.localField)
  localField_short : (Path.segments p.localField).length ≤ 32
  foreignField : configuration.get? "foreignField" = some (.string p.foreignField)
  foreignField_short : (Path.segments p.foreignField).length ≤ 32
  resultField : configuration.get? "as" = some (.string p.resultField)
  known : ∀ key ∈ configuration.keys, key ∈ ["from", "localField", "foreignField", "as"]

theorem read_eq_ok_iff {configuration : Document} {p : Plan} :
    Plan.read configuration = .ok p ↔ Writes configuration p := by
  constructor
  · intro h
    obtain ⟨source, hsource, h⟩ := Plan.bind_eq_ok h
    obtain ⟨_, hname, h⟩ := Plan.bind_eq_ok h
    obtain ⟨localField, hlocal, h⟩ := Plan.bind_eq_ok h
    obtain ⟨foreignField, hforeign, h⟩ := Plan.bind_eq_ok h
    obtain ⟨resultField, hresult, h⟩ := Plan.bind_eq_ok h
    obtain ⟨_, hknown, h⟩ := Plan.bind_eq_ok h
    cases h
    obtain ⟨hlocal, hlocal_short⟩ := Options.path_eq_ok_iff.1 (Plan.mapError_eq_ok hlocal)
    obtain ⟨hforeign, hforeign_short⟩ := Options.path_eq_ok_iff.1 (Plan.mapError_eq_ok hforeign)
    refine ⟨Options.text_eq_ok (Plan.mapError_eq_ok hsource), ?_, hlocal, hlocal_short, hforeign,
      hforeign_short, Options.text_eq_ok (Plan.mapError_eq_ok hresult),
      Options.onlyKnown_eq_ok_iff.1 (Plan.mapError_eq_ok hknown)⟩
    by_contra hproper
    cases hname.symm.trans (Check.checkName_eq_error_iff.2 ⟨hproper, rfl⟩)
  · intro h
    have hknown : Options.onlyKnown configuration stageName options = .ok () :=
      Options.onlyKnown_eq_ok_iff.2 h.known
    rw [Plan.read_of_ok (Options.text_eq_ok_iff.2 h.source), Plan.checkName,
      if_pos (Database.validName_iff.2 h.proper), Plan.complete,
      Options.path_eq_ok_iff.2 ⟨h.localField, h.localField_short⟩,
      Options.path_eq_ok_iff.2 ⟨h.foreignField, h.foreignField_short⟩,
      Options.text_eq_ok_iff.2 h.resultField, hknown]
    rfl

/-! ## Construction -/

/-- **A lookup is refused for the first check that fails**, whatever else is wrong, with the kind of
the fault and the option at fault; it is built where none fails, of what the configuration writes.
Its source is looked for once where it is a text, without being created, and nothing is looked for
otherwise. -/
theorem build_reports (configuration : Document) (db : Database) :
    let built := (build Database.resolver configuration).on db
    ((∃ l, built.1 = .ok l) ↔ ∃ p, Writes configuration p) ∧
    (∀ l, built.1 = .ok l → ∃ p h, l = (p.join h).lookup ∧ Writes configuration p) ∧
    (∀ e, built.1 = .error e ↔ ∃ before check after, Check.all = before ++ check :: after ∧
      (∀ k ∈ before, ∀ e', ¬ k.Refuses configuration e') ∧ check.Refuses configuration e) ∧
    (∀ (check : Check) fault, check.Refuses configuration (.specification fault) →
      fault.kind = check.kind configuration ∧ check.Concerns configuration fault.key) ∧
    (build Database.resolver.recorded configuration).on ⟨db, []⟩ =
      (built.1.map called, ⟨built.2, calls configuration⟩) ∧
    (calls configuration).length ≤ 1 ∧
    ∀ call, call ∈ calls configuration ↔
      configuration.get? "from" = some (.string call.name) ∧ call.create = false := by
  intro built
  obtain ⟨h, db', hbuilt, -⟩ := build_on configuration db
  have hresult : built.1 = (Plan.read configuration).map fun p => (p.join h).lookup :=
    congrArg Prod.fst hbuilt
  refine ⟨?_, ?_, ?_, fun _ _ hrefuses => hrefuses.kind_concerns,
    build_recorded Database.resolver configuration db [], length_calls_le configuration,
    fun _ => mem_calls_iff⟩
  · rw [hresult]
    simp only [← read_eq_ok_iff]
    cases Plan.read configuration <;> simp [Except.map]
  · intro l hl
    rw [hresult] at hl
    cases hread : Plan.read configuration with
    | error e =>
      rw [hread] at hl
      cases hl
    | ok p =>
      rw [hread] at hl
      cases hl
      exact ⟨p, h, rfl, read_eq_ok_iff.1 hread⟩
  · intro e
    rw [hresult, Plan.map_eq_error_iff, read_eq_error_iff]

/-- A bad name of the source comes before all that is wrong with the other options. -/
example :
    ((build Database.resolver [("x", .null), ("as", .null), ("from", .string "$c")]).on
      (.empty "shop")).1 = .error (.invalidName "$c") := rfl

end Lookup

end DocStore
