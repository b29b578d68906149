import DocStore.Database.Opening
import DocStore.Proofs.Directories
import DocStore.Proofs.WrittenPaths

/-!
# The folder of the log of a database

A database with a log keeps it in a folder of its own, below a base directory. Both are made where
they are missing; a base directory that cannot be made is a failure, a folder is not.

* `Host.Gains` says what is added to the files of a host. Lemmas named after it say what each step
  of setting up a log adds, up to `Database.gains_opened` for a database that is opened.
* `Database.prepareLog_eq_ok_iff` says that no failure leaves the base directory there, and
  `Database.isDirectory_folder_iff` when the folder is there in the end.
* `Database.opened_provides` is the main statement.
-/

namespace DocStore

open FileTree (Node)

/-! ## What setting up a log makes -/

/-- The files of a host gain entries of some kinds. Its environment stays as it is. -/
structure Host.Gains (kind : List String → Node → Prop) (host host' : Host) : Prop where
  files : host.files.Grows kind host'.files
  environment : host'.environment = host.environment

namespace Host.Gains

variable {kind kind' : List String → Node → Prop} {host host' host'' : Host}

theorem refl (kind : List String → Node → Prop) (host : Host) : host.Gains kind host := ⟨.refl, rfl⟩

theorem trans (h : host.Gains kind host') (h' : host'.Gains kind host'') :
    host.Gains kind host'' := ⟨h.files.trans h'.files, h'.environment.trans h.environment⟩

theorem mono (hkind : ∀ place node, kind place node → kind' place node)
    (h : host.Gains kind host') : host.Gains kind' host' := ⟨h.files.mono hkind, h.environment⟩

end Host.Gains

namespace LogSetup

section

variable {α β : Type} {kind : List String → Node → Prop} {host : Host}
  {step : FileTree → Except FileFault Unit × FileTree}

theorem run_onFiles (step : FileTree → Except FileFault Unit × FileTree) (host : Host) :
    (onFiles step).run host = match step host.files with
      | (.ok (), files) => (.ok (), { host with files })
      | (.error fault, files) => (.error (.file fault), { host with files }) := rfl

theorem run_bind (setup : LogSetup α) (next : α → LogSetup β) (host : Host) :
    (setup >>= next).run host =
      (ExceptT.bindCont next (setup.run host).1).run (setup.run host).2 := rfl

theorem gains_onFiles (h : host.files.Grows kind (step host.files).2) :
    host.Gains kind ((onFiles step).run host).2 := by
  rw [run_onFiles]
  generalize step host.files = made at h ⊢
  obtain ⟨result, files⟩ := made
  cases result with
  | ok _ => exact ⟨h, rfl⟩
  | error fault => exact ⟨h, rfl⟩

theorem gains_bind {setup : LogSetup α} {next : α → LogSetup β}
    (h : host.Gains kind (setup.run host).2)
    (hnext : ∀ a host', host.Gains kind host' → host'.Gains kind ((next a).run host').2) :
    host.Gains kind ((setup >>= next).run host).2 := by
  rw [run_bind]
  cases hresult : (setup.run host).1 with
  | error fault => exact h
  | ok a => exact h.trans (hnext a _ h)

theorem gains_install (kind : List String → Node → Prop) (host : Host) :
    host.Gains kind (install.run host).2 := by
  obtain ⟨files, environment, logging⟩ := host
  cases logging with
  | true => exact .refl kind _
  | false => exact ⟨.refl, rfl⟩

end

/-- The path of the log file of a name in a directory, once it is expanded. -/
def logPath (environment : Environment) (dir : FilePath) (name : String) : FilePath :=
  FilePath.ofText (environment.expand (dir.join (FilePath.ofText (name ++ ".log"))).text)

/-- What opening the log file of a path may make. -/
def LogEntry (files : FileTree) (path : FilePath) (place : List String) (node : Node) : Prop :=
  place ∈ files.way path ∧ node = .directory ∨ place = files.goal path ∧ node = .file ""

theorem gains_openPath (path : FilePath) (host : Host) :
    host.Gains (LogEntry host.files path)
      ((onFiles (fun files => files.ensure path.parents) >>= fun _ => touch path).run host).2 := by
  refine gains_bind (gains_onFiles ?_) fun _ host' hhost => gains_onFiles ?_
  · refine (host.files.ensure_grows path.parents).mono ?_
    rintro place node ⟨⟨q, hq, rfl⟩, hnode⟩
    have hplace := FileTree.mem_way_of_above (FilePath.above_of_mem_parents hq)
      (host.files.goal_mem_way q)
    exact .inl ⟨hplace, hnode⟩
  · split
    · rename_i htouch
      refine (FileTree.touch_grows htouch).mono ?_
      rintro place node ⟨rfl, hnode⟩
      exact .inr ⟨hhost.files.goal path, hnode⟩
    · exact .refl

theorem gains_openLog (dir : FilePath) (name : String) (host : Host) :
    host.Gains (LogEntry host.files (logPath host.environment dir name))
      ((openLog dir name).run host).2 := by
  have hget : ∀ next : Host → LogSetup Unit, ((get >>= next : LogSetup Unit).run host) =
    (next host).run host := fun _ => rfl
  rw [openLog, hget]
  exact gains_openPath _ host

/-! ## The log of a database -/

theorem forDatabase_eq (base : FilePath) (name : String) :
    forDatabase base name =
      (onFiles (fun files => files.ensureDirectory (databaseDir base name)) >>= fun _ =>
        openLog (databaseDir base name) name >>= fun _ => install) := rfl

theorem run_forDatabase {base : FilePath} {name : String} {host : Host} {files : FileTree}
    (h : host.files.ensureDirectory (databaseDir base name) = (.ok (), files)) :
    (forDatabase base name).run host =
      (openLog (databaseDir base name) name >>= fun _ => install).run { host with files } := by
  rw [forDatabase_eq, run_bind, run_onFiles]
  rw [h]
  rfl

/-- What is made behind the folder of a log. -/
theorem gains_inFolder (folder : FilePath) (name : String) (host : Host) :
    host.Gains (LogEntry host.files (logPath host.environment folder name))
      ((openLog folder name >>= fun _ => install).run host).2 :=
  gains_bind (gains_openLog folder name host) fun _ host' _ => gains_install _ host'

/-- What the log of a database may make: its folder with all that lead to it, and what opening the
log file makes. -/
theorem gains_forDatabase (base : FilePath) (name : String) (host : Host) :
    host.Gains (fun place node =>
        place ∈ host.files.way (databaseDir base name) ∧ node = .directory ∨
          LogEntry host.files (logPath host.environment (databaseDir base name) name) place node)
      ((forDatabase base name).run host).2 := by
  rw [forDatabase_eq]
  refine gains_bind (gains_onFiles ?_) fun _ host' hhost => (gains_inFolder _ name host').mono ?_
  · exact (host.files.ensureDirectory_grows _).mono fun _ _ hentry => .inl hentry
  · intro place node hentry
    rw [hhost.environment, LogEntry, hhost.files.way, hhost.files.goal] at hentry
    exact .inr hentry

theorem exists_ends_databaseDir (base : FilePath) (name : String) :
    ∃ before last, (databaseDir base name).Ends before last := by
  have hpath := FilePath.ofText_append (s := name) (show "_logs" ≠ "" by decide) (by decide)
  have hlast := (FilePath.proper_append (show 2 < "_logs".length by decide)
    ((FilePath.ofText name).names.getLastD "")).1
  rw [databaseDir]
  cases habsolute : (FilePath.ofText (name ++ "_logs")).absolute with
  | true =>
    rw [FilePath.join_of_absolute habsolute, hpath]
    exact ⟨_, _, .of_names rfl hlast⟩
  | false =>
    obtain ⟨names, -, -, -, hjoin⟩ := FilePath.exists_join_eq habsolute base
    rw [hjoin, hpath, ← List.append_assoc]
    exact ⟨_, _, .of_names rfl hlast⟩

/-- The folder of a log is there after its log has been set up if its path can be followed as soon
as what is missing is made. -/
theorem isDirectory_forDatabase {host : Host} (hroot : host.files.Rooted) {base : FilePath}
    {name : String} (h : host.files.Admits (databaseDir base name)) :
    ((forDatabase base name).run host).2.files.isDirectory (databaseDir base name) = true := by
  obtain ⟨before, last, hends⟩ := exists_ends_databaseDir base name
  have hne : databaseDir base name ≠ .empty := fun heq => by
    obtain ⟨slashes, hnames, -⟩ := hends.names
    simp [heq, FilePath.empty] at hnames
  have hok := FileTree.ensureDirectory_of_admits hroot h hends
  have hmade := (FileTree.ensureDirectory_eq_ok_iff hne).1 hok
  obtain ⟨result, files, hresult⟩ : ∃ result files,
    host.files.ensureDirectory (databaseDir base name) = (result, files) := ⟨_, _, rfl⟩
  rw [hresult] at hok hmade
  subst hok
  rw [run_forDatabase hresult]
  exact (gains_inFolder _ name { host with files }).files.isDirectory hmade

end LogSetup

/-! ## Opening a database -/

namespace Database

variable {settings : Settings} {host : Host}

/-- The ways in which the log of a database is prepared. -/
inductive Prepares (settings : Settings) (host : Host) : Except Failure Unit × Host → Prop
  | refused {fault : FileFault} {files : FileTree} :
    host.files.ensureDirectory (logBase settings) = (.error fault, files) →
    Prepares settings host (.error (.file fault), { host with files })
  | goesOn {files : FileTree} :
    host.files.ensureDirectory (logBase settings) = (.ok (), files) →
    Prepares settings host (.ok (),
      ((LogSetup.forDatabase (logBase settings) settings.name).run { host with files }).2)

theorem prepares (settings : Settings) (host : Host) :
    Prepares settings host (prepareLog settings host) := by
  rw [prepareLog]
  split
  · rename_i hfault
    exact .refused hfault
  · rename_i hok
    exact .goesOn hok

theorem opened_of_logging (h : settings.enableLogging = true) (host : Host) :
    opened settings host =
      ((prepareLog settings host).1.map fun () =>
        (empty settings.name).note (.databaseOpened settings.name),
        (prepareLog settings host).2) := by
  rw [opened, if_pos h]

/-- What opening a database with a log may make. -/
def OpeningEntry (settings : Settings) (host : Host) (place : List String) (node : Node) : Prop :=
  let folder := LogSetup.databaseDir (logBase settings) settings.name
  (place ∈ host.files.way (logBase settings) ∨ place ∈ host.files.way folder) ∧ node = .directory ∨
    LogSetup.LogEntry host.files (LogSetup.logPath host.environment folder settings.name) place node

theorem gains_prepareLog (settings : Settings) (host : Host) :
    host.Gains (OpeningEntry settings host) (prepareLog settings host).2 := by
  have hbase := host.files.ensureDirectory_grows (logBase settings)
  have h := prepares settings host
  generalize prepareLog settings host = prepared at h ⊢
  cases h with
  | refused hfault =>
    rw [hfault] at hbase
    exact ⟨hbase.mono fun _ _ hentry => .inl ⟨.inl hentry.1, hentry.2⟩, rfl⟩
  | @goesOn files hok =>
    rw [hok] at hbase
    have hfirst : host.Gains (OpeningEntry settings host) { host with files } :=
      ⟨hbase.mono fun _ _ hentry => .inl ⟨.inl hentry.1, hentry.2⟩, rfl⟩
    refine hfirst.trans ((LogSetup.gains_forDatabase _ _ _).mono fun place node hentry => ?_)
    rw [hfirst.environment, LogSetup.LogEntry, hfirst.files.way, hfirst.files.way,
      hfirst.files.goal] at hentry
    exact hentry.imp_left fun hfolder => ⟨.inr hfolder.1, hfolder.2⟩

theorem gains_opened (settings : Settings) (host : Host) :
    host.Gains (OpeningEntry settings host) (opened settings host).2 := by
  cases hlog : settings.enableLogging with
  | true =>
    rw [opened_of_logging hlog]
    exact gains_prepareLog settings host
  | false =>
    rw [opened, if_neg (by simp [hlog])]
    exact .refl _ host

theorem prepareLog_eq_ok_iff (settings : Settings) (host : Host) :
    (prepareLog settings host).1 = .ok () ↔ logBase settings = .empty ∨
      (prepareLog settings host).2.files.isDirectory (logBase settings) = true := by
  have h := prepares settings host
  generalize prepareLog settings host = prepared at h ⊢
  by_cases hempty : logBase settings = .empty
  · cases h with
    | refused hfault =>
      rw [hempty] at hfault
      cases hfault
    | goesOn _ => simp [hempty]
  · have hmade := FileTree.ensureDirectory_eq_ok_iff (t := host.files) hempty
    cases h with
    | refused hfault =>
      rw [hfault] at hmade
      simp [hempty, ← hmade]
    | @goesOn files hok =>
      rw [hok] at hmade
      have hrest := LogSetup.gains_forDatabase (logBase settings) settings.name { host with files }
      exact iff_of_true rfl (.inr (hrest.files.isDirectory (hmade.1 rfl)))

/-- The base directory is there afterwards if it was there, or if no more than directories was
missing on its path and it does not end in a name that stays in place. -/
theorem prepareLog_of_admits (hroot : host.files.Rooted) (h : host.files.Admits (logBase settings))
    (hends : host.files.isDirectory (logBase settings) = true ∨
      ∃ before name, (logBase settings).Ends before name) :
    (prepareLog settings host).1 = .ok () := by
  have hmade : (host.files.ensureDirectory (logBase settings)).1 = .ok () := by
    rcases hends with hthere | ⟨before, name, hends⟩
    · exact FileTree.ensure_of_isDirectory hthere
    · exact FileTree.ensureDirectory_of_admits hroot h hends
  have hcase := prepares settings host
  generalize prepareLog settings host = prepared at hcase
  cases hcase with
  | refused hfault =>
    rw [hfault] at hmade
    cases hmade
  | goesOn _ => rfl

theorem file_of_prepareLog {failure : Failure}
    (h : (prepareLog settings host).1 = .error failure) : ∃ fault, failure = .file fault := by
  have hcase := prepares settings host
  generalize prepareLog settings host = prepared at h hcase
  cases hcase with
  | refused _ =>
    cases h
    exact ⟨_, rfl⟩
  | goesOn _ => cases h

/-- Once the base directory has been made, the folder is there if no more than directories is
missing on its path. -/
theorem isDirectory_folder_iff (hroot : host.files.Rooted)
    (h : (prepareLog settings host).1 = .ok ()) :
    (prepareLog settings host).2.files.isDirectory
        (LogSetup.databaseDir (logBase settings) settings.name) = true ↔
      host.files.Admits (LogSetup.databaseDir (logBase settings) settings.name) := by
  have hgains := gains_prepareLog settings host
  have hcase := prepares settings host
  generalize prepareLog settings host = prepared at h hcase hgains ⊢
  cases hcase with
  | refused _ => cases h
  | @goesOn files hok =>
    have hbase := host.files.ensureDirectory_grows (logBase settings)
    rw [hok] at hbase
    refine ⟨FileTree.admits_of_isDirectory hgains.files, fun hadmits => ?_⟩
    have hfiles : ({ host with files } : Host).files.Rooted := hbase.rooted hroot
    exact LogSetup.isDirectory_forDatabase hfiles
      (hadmits.of_grows hbase fun _ _ hentry => hentry.2)

/-- **What is there of a log after its database has been opened.** A database is opened if its base
directory is there in the end. This is so if it was there, or if no more than directories was
missing on its path and it does not end in a name that stays in place; it is not so, which is a
fault of files, if there is something wrong with the path or a file is on its way. The folder is
there in the end unless there is something wrong with its path or a file is on its way, but this is
no failure. -/
theorem opened_provides (hlog : settings.enableLogging = true) (hroot : host.files.Rooted) :
    let base := logBase settings
    let folder := LogSetup.databaseDir base settings.name
    let after := (opened settings host).2.files
    ((∃ db, (opened settings host).1 = .ok db) ↔
        base = .empty ∨ after.isDirectory base = true) ∧
      (host.files.Admits base →
        host.files.isDirectory base = true ∨ (∃ before name, base.Ends before name) →
          ∃ db, (opened settings host).1 = .ok db) ∧
      (base ≠ .empty → ¬ host.files.Admits base →
        ∃ fault, (opened settings host).1 = .error (.file fault)) ∧
      (∀ failure, (opened settings host).1 = .error failure → ∃ fault, failure = .file fault) ∧
      ∀ db, (opened settings host).1 = .ok db →
        (after.isDirectory folder = true ↔ host.files.Admits folder) := by
  rw [opened_of_logging hlog]
  intro base folder after
  have hok := prepareLog_eq_ok_iff settings host
  have hgains := (gains_prepareLog settings host).files
  cases hresult : (prepareLog settings host).1 with
  | error failure =>
    obtain ⟨fault, rfl⟩ := file_of_prepareLog hresult
    rw [hresult] at hok
    refine ⟨⟨nofun, fun h => nomatch hok.2 h⟩, fun hadmits hends => ?_, fun _ _ => ⟨fault, rfl⟩,
      ?_, nofun⟩
    · have hmade := prepareLog_of_admits hroot hadmits hends
      rw [hresult] at hmade
      cases hmade
    · rintro failure ⟨⟩
      exact ⟨fault, rfl⟩
  | ok _ =>
    refine ⟨iff_of_true ⟨_, rfl⟩ (hok.1 hresult), fun _ _ => ⟨_, rfl⟩, fun hne hblocked => ?_,
      nofun, fun _ _ => isDirectory_folder_iff hroot hresult⟩
    have hbase := (hok.1 hresult).resolve_left hne
    exact absurd (FileTree.admits_of_isDirectory hgains hbase) hblocked

/-- A file in the place of the base directory. -/
theorem opened_provides_blocked :
    let settings : Settings :=
      { name := "shop", logDir := some (FilePath.ofText "logs"), enableLogging := true }
    let host : Host :=
      ⟨(FileTree.ofWorkingDirectory ["work"]).put ["work", "logs"] (.file ""), [], false⟩
    settings.enableLogging = true ∧ host.files.Rooted ∧
      ∃ fault, (opened settings host).1 = .error (.file fault) := by
  intro settings host
  have hroot : host.files.Rooted := by
    show ((FileTree.ofWorkingDirectory ["work"]).put (["work"] ++ ["logs"]) (.file "")).Rooted
    exact (FileTree.rooted_ofWorkingDirectory ["work"]).put (by decide) (by decide)
  refine ⟨rfl, hroot, (opened_provides rfl hroot).2.2.1 (by decide) fun h => ?_⟩
  exact h.clear ["work", "logs"] (by decide) "" (by decide)

/-- Opening a database passes over a file in the place of its folder. -/
theorem opened_without_folder :
    ¬ ∀ (settings : Settings) (host : Host), settings.enableLogging = true →
      (opened settings host).1.isOk = true →
      (opened settings host).2.files.isDirectory
        (LogSetup.databaseDir (logBase settings) settings.name) = true := by
  intro h
  have hfolder := h { name := "shop", enableLogging := true }
    ⟨(FileTree.ofWorkingDirectory ["work"]).put ["work", "shop_logs"] (.file "x"), [], false⟩ rfl
  revert hfolder
  decide

end Database

end DocStore
