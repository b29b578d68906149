import DocStore.Database
import DocStore.LogSetup

/-!
# Opening a database

A database is opened with settings. Where they ask for a log, its base directory has to be made;
that the log itself cannot be set up, for example since the process has one, is no failure.

* `Database.opened` opens a database among its surroundings.
-/

namespace DocStore.Database

/-- The base directory of the log files that settings ask for. -/
def logBase (settings : Settings) : FilePath := settings.logDir.getD (FilePath.ofText ".")

/-- The surroundings with the log of a database set up as far as it goes. -/
def prepareLog (settings : Settings) (host : Host) : Except Failure Unit × Host :=
  match host.files.ensureDirectory (logBase settings) with
  | (.error fault, files) => (.error (.file fault), { host with files })
  | (.ok (), files) =>
    (.ok (), ((LogSetup.forDatabase (logBase settings) settings.name).run { host with files }).2)

/-- Open an empty database, and note that it is open. -/
def opened (settings : Settings) (host : Host) : Except Failure Database × Host :=
  let (prepared, host) :=
    if settings.enableLogging then prepareLog settings host else (.ok (), host)
  (prepared.map fun () => (empty settings.name).note (.databaseOpened settings.name), host)

end DocStore.Database
