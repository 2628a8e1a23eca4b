import OfflineSchedule.Cache.Archive
import OfflineSchedule.CommandLine.Run
import Std.Time.DateTime.Timestamp
/-!
# The program

Reads the environment and the files that a run may need, and writes what the run leaves. A database
is kept as an archive of its records. Requests are not sent anywhere, so that every con is shown as
it is cached.
-/

namespace OfflineSchedule.Program

open CommandLine (Arguments Failure Request Setup)
open Time (Instant)

/-! ## Files -/

/-- The file at a path, if there is one. -/
def readFile? (path : String) : IO (Option (List UInt8)) := do
  try
    return some (← IO.FS.readBinFile path).toList
  catch _ => return none

/-- The disk with the entry at a path. -/
def addEntry (cwd : Place) (path : String) (d : Disk) : IO Disk := do
  match d.make? (Disk.start cwd path) (Disk.steps path) with
  | none => return d
  | some p =>
    match ← readFile? path with
    | some bytes => return ⟨(p, .file bytes) :: d.entries⟩
    | none => return d

/-- Writes the files that are new. -/
def writeEntries (before after : Disk) : IO Unit := do
  for (p, e) in after.entries do
    if (before.at? p).isNone then
      match e with
      | .file bytes =>
        IO.FS.createDirAll ("/" ++ "/".intercalate p.dropLast)
        IO.FS.writeBinFile ("/" ++ "/".intercalate p) ⟨bytes.toArray⟩
      | .directory => pure ()

/-- The host with the records of the database at a path. -/
def addDatabase (path : String) (h : Host) : IO Host := do
  let h := { h with disk := ← addEntry h.environment.cwd path h.disk }
  match h.disk.place? h.environment.cwd path with
  | none => return h
  | some p =>
    match h.disk.at? p with
    | some (.file bytes) =>
      match (Text.Utf8.decode? bytes).bind Records.ofArchive? with
      | some records => return h.save (some p) records
      | none => return h
    | _ => return h

def saveRecords (p : Option Place) (records : Records) : IO Unit := do
  match p with
  | some p => IO.FS.writeFile ("/" ++ "/".intercalate p) records.toArchive
  | none => pure ()

/-! ## The host -/

def now : IO Instant := do
  let t := (← Std.Time.Timestamp.now).val
  return ⟨t.second.val, t.nano.val.toNat⟩

/-- The host with the configuration files that may be read. -/
def readHost (explicit : Option String) : IO Host := do
  let cwd := (Disk.steps (← IO.currentDir).toString).filter (!·.isEmpty)
  let environment : Config.Environment :=
    { cwd, home := Cache.homeDirectory (← IO.getEnv "HOME") "/"
      configHome := ← IO.getEnv "XDG_CONFIG_HOME"
      apiUrl := ← IO.getEnv "CONSCHED_API_URL" }
  let paths := match explicit with
    | some path => [path]
    | none => Config.candidates environment
  let mut disk : Disk := ⟨[(cwd, .directory)]⟩
  for path in paths do
    disk := ← addEntry cwd path disk
  return { disk, environment, dataHome := ← IO.getEnv "XDG_DATA_HOME" }

/-! ## Commands -/

/-- Prints what a session has printed since the last time. -/
def flush (s : Watch.Session) : IO Watch.Session := do
  let (text, s) := (s.calm (← now) Turns.World.turnLimit).takeOutput
  let out ← IO.getStdout
  out.putStr text
  out.flush
  return s

/-- Reads line after line until the session ends. -/
partial def watch (s : Watch.Session) : IO Watch.Session := do
  let s ← flush s
  if !s.isRunning then return s
  let line ← (← IO.getStdin).read 4096
  if line.isEmpty then flush s.close else watch (s.type line.toList)

/-- Does a command, and gives the records that it leaves. -/
def perform (s : Setup) (c : CommandLine.Command) : IO Records := do
  let web : Http.Web := { isReachable := false }
  match c with
  | .watch =>
    let session := s.session web
    let closed : Http.Remote := { web with base := s.base }
    let session ← watch { session with world := { session.world with server := .remote closed } }
    return session.world.store.records
  | c =>
    let (text, records, _) := s.perform (← now) [] web c
    IO.print text
    return records

def runArguments (a : Arguments) : IO UInt32 := do
  let h ← readHost a.config
  let h ← match Config.load h.disk h.environment a.config with
    | .ok c => addDatabase (c.cache.path.getD h.defaultDatabase) h
    | .error _ => pure h
  let (result, after) := CommandLine.prepare a h
  writeEntries h.disk after.disk
  match result with
  | .error e =>
    IO.eprintln ("Error: " ++ e.message?.getD "the command cannot be done")
    return e.exitCode.toUInt32
  | .ok s =>
    saveRecords s.place (← perform s a.command)
    return 0

end OfflineSchedule.Program

/-- Runs the program. -/
def main (arguments : List String) : IO UInt32 := do
  match OfflineSchedule.CommandLine.Request.ofArguments arguments with
  | none =>
    IO.eprint OfflineSchedule.CommandLine.usageText
    return OfflineSchedule.CommandLine.Failure.arguments.exitCode.toUInt32
  | some (.print text) =>
    IO.print text
    return 0
  | some (.run a) => OfflineSchedule.Program.runArguments a
