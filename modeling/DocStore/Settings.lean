import DocStore.Environment
import DocStore.FileTree
import DocStore.Toml.Reader

/-!
# Settings

The settings of a database, in layers: the defaults, then what a TOML text says, then the variables
of the environment.

* `Settings.ofToml` reads a text; a key that is not a setting is of no account.
* `Settings.overriddenBy` applies the environment; a variable that does not hold a valid value is of
  no account.
* `Settings.ofFile` and `Settings.load` start from a file; `load` does without it where it is
  missing, and applies the environment.
-/

namespace DocStore

/-- The settings that a database is opened with. -/
structure Settings where
  /-- The name of the database, which also names its log files. -/
  name : String := "aggrelite"
  /-- Where log files are kept; the working directory unless it is set. -/
  logDir : Option FilePath := none
  logLevel : String := "info"
  /-- How many log files are kept after they are full. -/
  logRetention : UInt32 := 7
  /-- Whether opening the database sets up its log. -/
  enableLogging : Bool := false

namespace Settings

/-- The number of kept log files is below this bound. -/
def retentionBound : Nat := Nat.pow 2 32

/-! ## From TOML -/

/-- The number of kept files that a value says. -/
def retention? : Toml → Option UInt32
  | .integer n =>
    if 0 ≤ n ∧ n < retentionBound then some (UInt32.ofNat n.toNat) else none
  | _ => none

/-- A setting of a table: the default where the table has no such key. -/
def setting {α : Type} (table : Toml.Table) (key : String) (read : Toml → Option α) (default : α) :
    Option α :=
  match table.get? key with
  | none => some default
  | some value => read value

/-- The settings that a table says. -/
def ofTable? (table : Toml.Table) : Option Settings := do
  let defaults : Settings := {}
  let name ← setting table "name" Toml.string? defaults.name
  let logDir ← setting table "log_dir" (fun value => value.string?.map (some ∘ FilePath.ofText))
    defaults.logDir
  let logLevel ← setting table "log_level" Toml.string? defaults.logLevel
  let logRetention ← setting table "log_retention" retention? defaults.logRetention
  let enableLogging ← setting table "enable_logging" Toml.bool? defaults.enableLogging
  return { name, logDir, logLevel, logRetention, enableLogging }

/-- The settings that a text says. -/
def ofToml (s : String) : Except Failure Settings :=
  match Toml.ofText? s >>= ofTable? with
  | some settings => .ok settings
  | none => .error .settings

/-! ## From the environment -/

/-- The number of kept files that a text says. -/
def readRetention? (s : String) : Option UInt32 :=
  (Text.readUnsigned? retentionBound s).map UInt32.ofNat

/-- Whether a text says yes, in letters of either case. -/
def saysYes (s : String) : Bool :=
  ["1", "true", "yes"].contains (String.ofList (s.toList.map Char.toLower))

/-- The settings with what the environment says in their place. An empty name is none. -/
def overriddenBy (settings : Settings) (environment : Environment) : Settings where
  name := ((environment.get? "AGGRELITE_DB_NAME").filter (!·.isEmpty)).getD settings.name
  logDir := ((environment.get? "AGGRELITE_LOG_DIR").map FilePath.ofText).or settings.logDir
  logLevel := (environment.get? "AGGRELITE_LOG_LEVEL").getD settings.logLevel
  logRetention :=
    ((environment.get? "AGGRELITE_LOG_RETENTION").bind readRetention?).getD settings.logRetention
  enableLogging := ((environment.get? "AGGRELITE_LOGGING").map saysYes).getD settings.enableLogging

/-! ## From a file -/

/-- The settings that a file says. -/
def ofFile (files : FileTree) (path : FilePath) : Except Failure Settings :=
  match files.read path with
  | .ok s => ofToml s
  | .error fault => .error (.file fault)

/-- The settings that a file, if there is one, and the environment say. -/
def load (files : FileTree) (environment : Environment) (path : Option FilePath) :
    Except Failure Settings := do
  let settings ← match path with
    | some path => if files.exists? path then ofFile files path else .ok {}
    | none => .ok {}
  return settings.overriddenBy environment

end Settings

end DocStore
