import DocStore.Proofs.LogFolders

/-!
# Log files below the base directory

The folder of a log is named after its database, and so is the file in it. The name is a path of its
own: it can lead away from the base directory.

* `FilePath.staysBelow` says that names never lead above the place that they start from.
  `FilePath.prefix_of_mem_way` says that such names lead through places below it, and
  `FilePath.not_mem_goal` that others need not come back.
* `LogSetup.confined` says this of the name of a database. `LogSetup.confined_iff` says that it is
  what keeps the folder and the file below any base directory.
* `Database.opened_stays` is the main statement.
-/

namespace DocStore

open FileTree (Node)

namespace FilePath

/-! ## Names that stay below their start -/

/-- Whether names never lead above the place that they start from. They are told from a place on
that is `depth` directories below it. -/
def staysBelow : Nat → List String → Bool
  | _, [] => true
  | depth, name :: rest =>
    if isIdle name then staysBelow depth rest
    else if name = ".." then depth != 0 && staysBelow (depth - 1) rest
    else staysBelow (depth + 1) rest

section

variable {base below q names : List String} {name fresh : String} {depth : Nat}

theorem staysBelow_of_isIdle (h : isIdle name = true) :
    staysBelow depth (name :: names) = staysBelow depth names := by
  rw [staysBelow, if_pos h]

@[simp] theorem staysBelow_up :
    staysBelow depth (".." :: names) = (depth != 0 && staysBelow (depth - 1) names) := by
  rw [staysBelow, if_neg (by decide), if_pos rfl]

theorem staysBelow_of_proper (hidle : isIdle name = false) (hup : name ≠ "..") :
    staysBelow depth (name :: names) = staysBelow (depth + 1) names := by
  rw [staysBelow, if_neg (by simp [hidle]), if_neg hup]

theorem staysBelow_concat (hidle : isIdle name = false) (hup : name ≠ "..") :
    staysBelow depth (names ++ [name]) = staysBelow depth names := by
  induction names generalizing depth with
  | nil => exact staysBelow_of_proper hidle hup
  | cons first rest ih =>
    rw [List.cons_append, staysBelow, staysBelow]
    simp only [ih]

/-- Names that stay below a place lead through places below it only. -/
theorem prefix_of_mem_way (h : staysBelow below.length names = true)
    (hq : q ∈ way (base ++ below) names) : base <+: q := by
  induction names generalizing below with
  | nil =>
    rw [List.mem_singleton.1 hq]
    exact List.prefix_append ..
  | cons name rest ih =>
    rcases List.mem_cons.1 hq with rfl | hq
    · exact List.prefix_append ..
    · rcases name_cases name with hidle | rfl | ⟨hidle, hup⟩
      · rw [staysBelow_of_isIdle hidle] at h
        rw [onward_of_isIdle hidle] at hq
        exact ih h hq
      · rw [staysBelow_up] at h
        rw [onward_up] at hq
        cases below with
        | nil => cases h
        | cons first more =>
          rw [List.dropLast_append_of_ne_nil (List.cons_ne_nil first more)] at hq
          refine ih ?_ hq
          rw [List.length_dropLast]
          simpa using h
      · rw [staysBelow_of_proper hidle hup] at h
        rw [onward_of_proper hidle hup, List.append_assoc] at hq
        refine ih ?_ hq
        rw [List.length_append]
        exact h

theorem prefix_of_mem_way_start (h : staysBelow 0 names = true) (hq : q ∈ way base names) :
    base <+: q :=
  @prefix_of_mem_way base [] q names h (by rwa [List.append_nil])

theorem mem_goal {place : List String} (h : name ∈ goal place names) :
    name ∈ place ∨ name ∈ names := by
  induction names generalizing place with
  | nil => exact .inl h
  | cons first rest ih =>
    rcases ih h with honward | hrest
    · rw [onward] at honward
      split at honward
      · exact .inl honward
      · split at honward
        · exact .inl (List.dropLast_subset _ honward)
        · refine (List.mem_append.1 honward).imp_right fun hname => ?_
          rw [List.mem_singleton.1 hname]
          exact List.mem_cons_self
    · exact .inr (List.mem_cons_of_mem _ hrest)

/-- Names that lead above a place do not come back to it unless they have its name. -/
theorem not_mem_goal (h : staysBelow below.length names = false) (hfresh : fresh ∉ names) :
    fresh ∉ goal (fresh :: below) names := by
  induction names generalizing below with
  | nil => cases h
  | cons name rest ih =>
    have hrest : fresh ∉ rest := fun hmem => hfresh (List.mem_cons_of_mem _ hmem)
    show fresh ∉ goal (onward (fresh :: below) name) rest
    rcases name_cases name with hidle | rfl | ⟨hidle, hup⟩
    · rw [staysBelow_of_isIdle hidle] at h
      rw [onward_of_isIdle hidle]
      exact ih h hrest
    · rw [staysBelow_up] at h
      rw [onward_up]
      cases below with
      | nil =>
        -- the names have left the place, and only its own name could lead back
        exact fun hmem => (mem_goal hmem).elim List.not_mem_nil hrest
      | cons first more =>
        rw [List.dropLast_cons_cons]
        refine ih ?_ hrest
        rw [List.length_dropLast]
        simpa using h
    · rw [staysBelow_of_proper hidle hup] at h
      rw [onward_of_proper hidle hup, List.cons_append]
      refine ih ?_ hrest
      rw [List.length_append]
      exact h

/-- There is a name that is none of some names, and leads onward. -/
theorem exists_fresh (names : List String) :
    ∃ fresh, fresh ∉ names ∧ isIdle fresh = false ∧ fresh ≠ ".." := by
  have hlonger : ∃ n, ∀ name ∈ names, name.length ≤ n := by
    induction names with
    | nil => exact ⟨0, nofun⟩
    | cons name rest ih =>
      obtain ⟨n, hn⟩ := ih
      refine ⟨name.length + n, List.forall_mem_cons.2 ⟨Nat.le_add_right .., fun other ho => ?_⟩⟩
      exact (hn other ho).trans (Nat.le_add_left ..)
  obtain ⟨n, hn⟩ := hlonger
  have hlength : (String.ofList (List.replicate n 'a') ++ "log").length = n + 3 := by
    rw [String.length_append, String.length_ofList, List.length_replicate]
    rfl
  refine ⟨String.ofList (List.replicate n 'a') ++ "log", fun hmem => ?_,
    proper_append (by decide) _⟩
  have hle := hn _ hmem
  rw [hlength] at hle
  omega

end

end FilePath

/-! ## Logs below their base directory -/

namespace LogSetup

/-- The path of the log file of a database. -/
def databaseFile (base : FilePath) (name : String) : FilePath :=
  (databaseDir base name).join (FilePath.ofText (name ++ ".log"))

/-- Whether a name of a database does not lead from the root, and the names that it consists of, as
a path, never lead above their start. -/
def confined (name : String) : Bool :=
  !(FilePath.ofText name).absolute &&
    FilePath.staysBelow 0 (FilePath.ofText name).names.dropLast

section

variable {t : FileTree} {base : FilePath} {name suffix : String} {r : List String}

/-- A suffix without slashes makes no difference to whether a name is confined. -/
theorem confined_eq (hlength : 2 < suffix.length) (hslash : '/' ∉ suffix.toList)
    (name : String) :
    confined name = (!(FilePath.ofText (name ++ suffix)).absolute &&
      FilePath.staysBelow 0 (FilePath.ofText (name ++ suffix)).names) := by
  have hne : suffix ≠ "" := fun heq => by simp [heq] at hlength
  obtain ⟨hidle, hup⟩ := FilePath.proper_append hlength ((FilePath.ofText name).names.getLastD "")
  rw [FilePath.ofText_append hne hslash, FilePath.staysBelow_concat hidle hup, confined]

/-- What is behind a path under a confined name is below it. -/
theorem prefix_of_mem_way_join (h : confined name = true) (hlength : 2 < suffix.length)
    (hslash : '/' ∉ suffix.toList) (hr : r ∈ t.way (base.join (FilePath.ofText (name ++ suffix)))) :
    r ∈ t.way base ∨ t.goal base <+: r := by
  rw [confined_eq hlength hslash, Bool.and_eq_true_iff, Bool.not_eq_true'] at h
  exact ((FilePath.mem_way_join h.1).1 hr).imp_right (FilePath.prefix_of_mem_way_start h.2)

theorem prefix_goal_join (h : confined name = true) (hlength : 2 < suffix.length)
    (hslash : '/' ∉ suffix.toList) :
    t.goal base <+: t.goal (base.join (FilePath.ofText (name ++ suffix))) := by
  rw [confined_eq hlength hslash, Bool.and_eq_true_iff, Bool.not_eq_true'] at h
  rw [FilePath.goal_join h.1]
  exact FilePath.prefix_of_mem_way_start h.2 (FilePath.goal_mem_way ..)

/-- From some directory a name that is not confined leads elsewhere. -/
theorem exists_not_prefix (h : confined name = false) :
    ∃ base : FilePath, ∀ t : FileTree, ¬ t.goal base <+: t.goal (databaseDir base name) := by
  rw [confined_eq (show 2 < "_logs".length by decide) (by decide),
    Bool.and_eq_false_iff, Bool.not_eq_false'] at h
  obtain ⟨fresh, hfresh, hidle, hup⟩ :=
    FilePath.exists_fresh (FilePath.ofText (name ++ "_logs")).names
  refine ⟨⟨true, [fresh]⟩, fun t hprefix => ?_⟩
  have hbase : t.goal ⟨true, [fresh]⟩ = [fresh] := FilePath.onward_of_proper hidle hup []
  have hmem : fresh ∈ t.goal (databaseDir ⟨true, [fresh]⟩ name) :=
    hprefix.subset (by rw [hbase]; exact List.mem_cons_self)
  cases habsolute : (FilePath.ofText (name ++ "_logs")).absolute with
  | true =>
    have hstart : t.start (FilePath.ofText (name ++ "_logs")) = [] := by
      rw [FileTree.start, if_pos habsolute]
    rw [databaseDir, FilePath.join_of_absolute habsolute, FileTree.goal, hstart] at hmem
    exact (FilePath.mem_goal hmem).elim List.not_mem_nil hfresh
  | false =>
    rw [databaseDir, FilePath.goal_join habsolute, hbase] at hmem
    exact @FilePath.not_mem_goal [] _ fresh (h.resolve_left (by simp [habsolute])) hfresh hmem

/-- A log file is below the base directory where its folder is. -/
theorem prefix_of_mem_way_databaseFile (h : confined name = true)
    (hr : r ∈ t.way (databaseFile base name)) : r ∈ t.way base ∨ t.goal base <+: r := by
  rcases prefix_of_mem_way_join h (by decide) (by decide) hr with hr | hr
  · exact prefix_of_mem_way_join h (by decide) (by decide) hr
  · exact .inr ((prefix_goal_join h (by decide) (by decide)).trans hr)

theorem confined_iff :
    confined name = true ↔ ∀ (t : FileTree) (base : FilePath),
      t.goal base <+: t.goal (databaseDir base name) ∧
        t.goal base <+: t.goal (databaseFile base name) := by
  constructor
  · intro h t base
    have hfolder : t.goal base <+: t.goal (databaseDir base name) :=
      prefix_goal_join h (by decide) (by decide)
    exact ⟨hfolder, hfolder.trans (prefix_goal_join h (by decide) (by decide))⟩
  · intro h
    refine Bool.not_eq_false _ |>.mp fun hout => ?_
    obtain ⟨base, hbase⟩ := exists_not_prefix hout
    exact hbase (FileTree.ofWorkingDirectory []) (h _ base).1

/-- A log file is opened where its path leads unless the path is expanded. -/
theorem logPath_eq {s : String} {environment : Environment} (hbase : base = FilePath.ofText s)
    (h : environment.expand (databaseFile base name).text = (databaseFile base name).text) :
    logPath environment (databaseDir base name) name = databaseFile base name := by
  have hwritten : ∀ suffix : String, 2 < suffix.length →
      (FilePath.ofText (name ++ suffix)).Written := fun suffix hsuffix => by
    refine FilePath.written_ofText fun heq => ?_
    have hidle := (FilePath.proper_append hsuffix name).1
    rw [heq] at hidle
    cases hidle
  have hwrites : base = .empty ∨ base.Written := by
    rw [hbase]
    by_cases hs : s = ""
    · exact .inl (by rw [hs]; rfl)
    · exact .inr (FilePath.written_ofText hs)
  have hfolder : (databaseDir base name).Written := .join hwrites (hwritten "_logs" (by decide))
  have hfile : (databaseFile base name).Written :=
    .join (.inr hfolder) (hwritten ".log" (by decide))
  show FilePath.ofText (environment.expand (databaseFile base name).text) = _
  rw [h, hfile.ofText_text]

end

end LogSetup

/-! ## Opening a database -/

namespace Database

/-- **Where opening a database makes directories and files.** A confined name is what keeps its
folder and its log file below any base directory. Nothing that was there is changed, and what is
made is on the way to the base directory, to the folder or to the log file. Under a confined name it
is on the way to the base directory or below it, if the path of the log file has no variable of the
environment to be expanded. -/
theorem opened_stays (settings : Settings) (host : Host) :
    let base := logBase settings
    let file := LogSetup.databaseFile base settings.name
    let after := (opened settings host).2.files
    (LogSetup.confined settings.name = true ↔ ∀ (t : FileTree) (base : FilePath),
        t.goal base <+: t.goal (LogSetup.databaseDir base settings.name) ∧
          t.goal base <+: t.goal (LogSetup.databaseFile base settings.name)) ∧
      (∀ place node, host.files.node? place = some node → after.node? place = some node) ∧
      (∀ place node, after.node? place = some node →
        host.files.node? place = some node ∨ OpeningEntry settings host place node) ∧
      (LogSetup.confined settings.name = true → (∃ s, base = FilePath.ofText s) →
        host.environment.expand file.text = file.text →
        ∀ place node, after.node? place = some node →
          host.files.node? place = some node ∨ place ∈ host.files.way base ∨
            host.files.goal base <+: place) := by
  intro base file after
  have hgrows := (gains_opened settings host).files
  refine ⟨LogSetup.confined_iff, fun _ _ => hgrows.kept, fun _ _ => hgrows.new, ?_⟩
  rintro hconfined ⟨s, hs⟩ hexpand place node hnode
  rcases hgrows.new hnode with hold | ⟨hbase | hfolder, -⟩ | hlog
  · exact .inl hold
  · exact .inr (.inl hbase)
  · exact .inr (LogSetup.prefix_of_mem_way_join hconfined (by decide) (by decide) hfolder)
  · have hpath : LogSetup.logPath host.environment
        (LogSetup.databaseDir (logBase settings) settings.name) settings.name = file :=
      LogSetup.logPath_eq hs hexpand
    have hplace : place ∈ host.files.way file := by
      rw [hpath] at hlog
      rcases hlog with ⟨hway, -⟩ | ⟨rfl, -⟩
      · exact hway
      · exact host.files.goal_mem_way file
    exact .inr (LogSetup.prefix_of_mem_way_databaseFile hconfined hplace)

/-- A name with a slash that is confined. -/
theorem opened_stays_shop :
    let settings : Settings :=
      { name := "eu/shop", logDir := some (FilePath.ofText "logs"), enableLogging := true }
    let host : Host := ⟨.ofWorkingDirectory ["work"], [("LANG", "C")], false⟩
    LogSetup.confined settings.name = true ∧
      ∀ place node, (opened settings host).2.files.node? place = some node →
        host.files.node? place = some node ∨ place ∈ [["work"], ["work", "logs"]] ∨
          ["work", "logs"] <+: place :=
  ⟨by decide, (opened_stays _ _).2.2.2 (by decide) ⟨"logs", rfl⟩ (by decide)⟩

/-- A name that leads from the root takes the log files of its database elsewhere. -/
theorem opened_outside :
    ¬ ∀ (settings : Settings) (host : Host) (place : List String) (node : Node),
      settings.enableLogging = true → (opened settings host).2.files.node? place = some node →
        host.files.node? place = some node ∨ place ∈ host.files.way (logBase settings) ∨
          host.files.goal (logBase settings) <+: place := by
  intro h
  have hfolder := h
    { name := "/tmp/x", logDir := some (FilePath.ofText "logs"), enableLogging := true }
    ⟨.ofWorkingDirectory ["work"], [], false⟩ ["tmp", "x_logs"] .directory rfl
  revert hfolder
  decide

end Database

end DocStore
