import OfflineSchedule.Cache.Location
import OfflineSchedule.Config.Basic
import OfflineSchedule.Config.Disk
/-!
# Finding the configuration

A path that is given explicitly has to exist. Otherwise the current directory is searched, and then
the configuration directory of the user. The environment may replace the base URL.
-/

namespace OfflineSchedule.Config

/-- What the search depends on besides the files. -/
structure Environment where
  /-- The current directory. -/
  cwd : Place
  home : String
  /-- The directory for configuration files, which counts if it is absolute. -/
  configHome : Option String := none
  /-- Replaces the base URL. -/
  apiUrl : Option String := none

inductive LoadError where
  /-- There is no file at the path that was given. -/
  | noSuchFile (path : String)
  /-- No path was given, and there is no file where one is expected. -/
  | noFile
  /-- The file is a directory or no text. -/
  | unreadable (path : String)
  | malformed (path : String)
deriving DecidableEq, Repr

/-- The text of those errors whose wording is fixed. -/
def LoadError.message? : LoadError → Option String
  | noSuchFile path => some ("Config file not found: " ++ path)
  | noFile =>
    some ("No configuration file found. Create one at ~/.config/consched/config.yaml\n" ++
      "See config.example.yaml for the format.")
  | unreadable _ | malformed _ => none

/-- The files that are looked for, in order. -/
def candidates (e : Environment) : List String :=
  ["consched.yaml",
    Cache.joinPath
      (Cache.joinPath (Cache.userDirectory e.configHome e.home ".config") "consched") "config.yaml"]

/-- The path of the configuration file. -/
def locate (d : Disk) (e : Environment) : Option String → Except LoadError String
  | some path => if (d.find? e.cwd path).isSome then .ok path else .error (.noSuchFile path)
  | none =>
    match (candidates e).find? fun path => (d.find? e.cwd path).isSome with
    | some path => .ok path
    | none => .error .noFile

def readFile (d : Disk) (e : Environment) (path : String) : Except LoadError Config :=
  match d.find? e.cwd path with
  | some (.file bytes) =>
    match Text.Utf8.decode? bytes with
    | none => .error (.unreadable path)
    | some text =>
      match ofText text with
      | some c => .ok c
      | none => .error (.malformed path)
  | _ => .error (.unreadable path)

/-- Loads the configuration. -/
def load (d : Disk) (e : Environment) (explicit : Option String) : Except LoadError Config := do
  let path ← locate d e explicit
  let c ← readFile d e path
  return match e.apiUrl with
    | some url => { c with baseUrl := url }
    | none => c

end OfflineSchedule.Config
