import DocStore.Settings

/-!
# Setting up a log

A log is set up for a whole process: with all its files made, and as the first one. The first file
of a log that cannot be made ends the setup; what was made before stays.

* `LogSetup.configure` sets up a log of two files in one directory, `LogSetup.fromEnvironment` one
  with the choices that the environment makes.
* `LogSetup.forDatabase` sets up the log of a database in a directory of its own.
* `LogSetup.ofFile` sets up a log as a file describes it.
-/

namespace DocStore

/-- The surroundings of a database: files, an environment, and whether a log is set up. -/
structure Host where
  files : FileTree
  environment : Environment
  logging : Bool

namespace LogSetup

/-- Why a log is not set up. -/
inductive Fault where
  | file (fault : FileFault)
  /-- The description of a log is not in a known format, or not well-formed. -/
  | description
  | alreadyInstalled

end LogSetup

/-- A setup of a log. What it changed before it failed stays changed. -/
abbrev LogSetup (α : Type) := ExceptT LogSetup.Fault (StateM Host) α

namespace LogSetup

/-! ## Files -/

/-- A setup step on files. -/
def onFiles (step : FileTree → Except FileFault Unit × FileTree) : LogSetup Unit :=
  ExceptT.mk fun host =>
    match step host.files with
    | (.ok (), files) => (.ok (), { host with files })
    | (.error fault, files) => (.error (.file fault), { host with files })

/-- Make a file unless there is one. -/
def touch (path : FilePath) : LogSetup Unit :=
  onFiles fun files =>
    match files.touch path with
    | .ok files => (.ok (), files)
    | .error fault => (.error fault, files)

/-- Open the log file of a name in a directory. The path may refer to variables of the environment,
and the directories on it are made. -/
def openLog (dir : FilePath) (name : String) : LogSetup Unit := do
  let host ← get
  let path := FilePath.ofText
    (host.environment.expand (dir.join (FilePath.ofText (name ++ ".log"))).text)
  onFiles fun files => files.ensure path.parents
  touch path

/-- Install the log of the process. There can be only one. -/
def install : LogSetup Unit := do
  if (← get).logging then throw .alreadyInstalled
  modify fun host => { host with logging := true }

/-! ## Setups -/

/-- The working directory as a path. -/
def workingDirectory : LogSetup FilePath := do
  return ⟨true, (← get).files.workingDirectory⟩

/-- A log of the whole process and one of its pipelines, in the same directory. -/
def configure (dir : Option FilePath) : LogSetup Unit := do
  let dir ← match dir with
    | some dir => pure dir
    | none => workingDirectory
  onFiles fun files => files.ensureDirectory dir
  openLog dir "app"
  openLog dir "pipeline"
  install

/-- The log of the process, in the directory that the environment says. -/
def fromEnvironment : LogSetup Unit := do
  configure (((← get).environment.get? "AGGRELITE_LOG_DIR").map FilePath.ofText)

/-- The directory of the log of a database. -/
def databaseDir (base : FilePath) (name : String) : FilePath :=
  base.join (FilePath.ofText (name ++ "_logs"))

/-- The log of a database, in a directory of its own. -/
def forDatabase (base : FilePath) (name : String) : LogSetup Unit := do
  let dir := databaseDir base name
  onFiles fun files => files.ensureDirectory dir
  openLog dir name
  install

/-! ## Described setups -/

/-- The description of a log without files: a threshold for all that is noted. -/
def describesThreshold (s : String) : Bool :=
  ["off", "error", "warn", "info", "debug", "trace"].any fun level =>
    s == "root:\n  level: " ++ level ++ "\n"

/-- The log that a file describes. The end of its name says the format. -/
def ofFile (path : FilePath) : LogSetup Unit := do
  match path.extension? with
  | some "yaml" | some "yml" =>
    match (← get).files.read path with
    | .ok description =>
      if describesThreshold description then install else throw .description
    | .error fault => throw (.file fault)
  | _ => throw .description

/-- The path of the description of a log that is looked for first. -/
def descriptionPath : FilePath := FilePath.ofText "log4rs.yaml"

/-- The log that the file at `descriptionPath` describes. -/
def described : LogSetup Unit := ofFile descriptionPath

/-- The log that a file describes, or where it is missing the one that the environment says. -/
def standard : LogSetup Unit := do
  if (← get).files.exists? descriptionPath then described else fromEnvironment

end LogSetup

end DocStore
