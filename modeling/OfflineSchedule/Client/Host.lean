import OfflineSchedule.Cache.Store
import OfflineSchedule.Config.Search
/-!
# The host

What a run of the program finds on the machine that it runs on, and leaves behind there: files,
databases and the environment.
-/

namespace OfflineSchedule

structure Host where
  disk : Disk
  /-- The records of database files. -/
  databases : List (Place × Records) := []
  environment : Config.Environment
  /-- The directory for data files, which counts if it is absolute. -/
  dataHome : Option String := none

namespace Host

/-! ## Databases -/

/-- The path of the database if none is configured. -/
def defaultDatabase (h : Host) : String := Cache.defaultPath h.dataHome h.environment.home

/-- The records of a file, unless it is something else than a database. A new one is empty. -/
def records? (p : Place) (h : Host) : Option Records :=
  match h.databases.find? (·.1 = p) with
  | some (_, records) => some records
  | none => if h.disk.at? p = some (.file []) then some [] else none

/-- Opens a database, and makes it if it is missing. Without a path its records are forgotten. -/
def openDatabase? (path : String) (h : Host) : Option (Option Place × Store × Host) :=
  if path.isEmpty then some (none, { kind := .database }, h)
  else
    match h.disk.create? h.environment.cwd path with
    | none => none
    | some (p, disk) =>
      let h := { h with disk }
      (h.records? p).map fun records => (some p, { kind := .database, records }, h)

/-- Keeps the records of a database. -/
def save (p : Option Place) (records : Records) (h : Host) : Host :=
  match p with
  | some p => { h with databases := (p, records) :: h.databases.filter (·.1 ≠ p) }
  | none => h

/-- Opens the store that is configured, with the place to save its records. -/
def openStore? (c : CacheConfig) (h : Host) : Option (Option Place × Store × Host) :=
  if !c.enabled then some (none, { kind := .disabled }, h)
  else
    match c.backend with
    | .memory => some (none, { kind := .memory c.quotaBytes }, h)
    | .sqlite => h.openDatabase? (c.path.getD h.defaultDatabase)

/-! ## Log files -/

/-- Why there is no log file. -/
inductive LogError where
  /-- The path names no file, or the directory cannot be made. -/
  | noDirectory
  /-- The file cannot be made. -/
  | noFile
deriving DecidableEq, Repr

/-- The steps of a path to the directory of a file, unless it names no file. -/
def directorySteps? (path : String) : Option (List String) :=
  let steps := (Disk.steps path).filter fun s => s ≠ "" && s ≠ "."
  match steps.getLast? with
  | none | some ".." => none
  | some _ => some steps.dropLast

/-- Makes the log file. -/
def makeLog (path : String) (h : Host) : Except LogError Host :=
  let start := Disk.start h.environment.cwd path
  match (directorySteps? path).bind (h.disk.make? start) with
  | none => .error .noDirectory
  | some p =>
    if (h.disk.at? p).any (· ≠ .directory) then .error .noDirectory
    else
      match h.disk.create? h.environment.cwd path with
      | none => .error .noFile
      | some (_, disk) => .ok { h with disk }

/-- Makes the log file if one is configured. -/
def makeLogIfSet : Option String → Host → Except LogError Host
  | some path, h => h.makeLog path
  | none, h => .ok h

end Host

end OfflineSchedule
