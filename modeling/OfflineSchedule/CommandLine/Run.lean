import OfflineSchedule.Client.Host
import OfflineSchedule.CommandLine.Arguments
import OfflineSchedule.Watch.Session
/-!
# A run of the program

From the arguments to the exit code: the configuration is found, the log file is made, the con is
chosen, the base URL is read, the store is opened, and then the command is done. The first of these
that fails ends the run.
-/

namespace OfflineSchedule.CommandLine

open Http (Remote Web)
open Time (Instant)

/-- Why a run ends before its command is done. -/
inductive Failure where
  | arguments
  | config (e : Config.LoadError)
  | log (e : Host.LogError)
  /-- No con is asked for, and none is configured. -/
  | noCon
  | baseUrl (e : Http.BaseUrlError)
  | store
deriving DecidableEq, Repr

/-- A log file that cannot be made stops the program at once. -/
def Failure.exitCode : Failure → Nat
  | arguments => 2
  | log .noFile => 101
  | _ => 1

/-- The text of those failures whose wording is fixed. -/
def Failure.message? : Failure → Option String
  | config e => e.message?
  | noCon => some "No con instance given. Pass --instance or set default_instance"
  | baseUrl e => e.message?
  | arguments | log _ | store => none

/-- What a command needs. -/
structure Setup where
  config : Config
  con : String
  base : Url
  store : Store
  /-- Where the records are saved. -/
  place : Option Place

/-- Prepares a run. What was made before a failure stays. -/
def prepare (a : Arguments) (h : Host) : Except Failure Setup × Host :=
  match Config.load h.disk h.environment a.config with
  | .error e => (.error (.config e), h)
  | .ok config =>
    match h.makeLogIfSet config.logFile with
    | .error e => (.error (.log e), h)
    | .ok h =>
      match a.con <|> config.defaultCon, Http.baseUrl config.baseUrl with
      | none, _ => (.error .noCon, h)
      | some _, .error e => (.error (.baseUrl e), h)
      | some con, .ok base =>
        match h.openStore? config.cache with
        | none => (.error .store, h)
        | some (place, store, h) => (.ok ⟨config, con, base, store, place⟩, h)

/-! ## Commands -/

def Setup.client (s : Setup) (web : Web) : Client Remote where
  server := { web with base := s.base }
  store := s.store
  convention := .new s.config.retry.policy s.config.announcements

/-- A session in which no request is answered. -/
def Setup.session (s : Setup) (web : Web) : Watch.Session :=
  .start s.config.retry.policy s.config.announcements s.store
    (.remote { web with base := s.base, holds := true }) s.con

/-- Watches until the input ends, and gives the session at its end. -/
def Setup.watch (s : Setup) (now : Instant) (input : List UInt8) (web : Web) : Watch.Session :=
  let calm (s : Watch.Session) := s.calm now Turns.World.turnLimit
  calm (calm ((calm (s.session web)).type input)).close

/-- The text that a command prints, the records that it leaves, and the web. -/
def Setup.perform (s : Setup) (now : Instant) (input : List UInt8) (web : Web) :
    Command → String × Records × Web
  | .summary =>
    let (text, c) := (s.client web).display Remote.service s.con now
    (text, c.store.records, c.server.toWeb)
  | .reload =>
    let (text, c) := (s.client web).reload Remote.service s.con now
    (text, c.store.records, c.server.toWeb)
  | .clear =>
    let (text, c) := (s.client web).clear
    (text, c.store.records, c.server.toWeb)
  | .watch =>
    let session := s.watch now input web
    let requests := session.takeRequests.1.reverse
    (session.output, session.world.store.records, { web with requests })

/-! ## Runs -/

/-- What a run leaves. -/
structure Finish where
  exitCode : Nat
  output : String
  host : Host
  web : Web

/-- Runs the program with the given input. -/
def run (arguments : List String) (input : List UInt8) (now : Instant) (h : Host)
    (web : Web) : Finish :=
  match Request.ofArguments arguments with
  | none => ⟨Failure.arguments.exitCode, "", h, web⟩
  | some (.print text) => ⟨0, text, h, web⟩
  | some (.run a) =>
    match prepare a h with
    | (.error e, h) => ⟨e.exitCode, "", h, web⟩
    | (.ok s, h) =>
      let (output, records, web) := s.perform now input web a.command
      ⟨0, output, h.save s.place records, web⟩

end OfflineSchedule.CommandLine
