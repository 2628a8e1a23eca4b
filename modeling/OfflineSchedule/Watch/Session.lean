import OfflineSchedule.Client.Basic
import OfflineSchedule.Command
import OfflineSchedule.Turns.Clock
import OfflineSchedule.Watch.Relay
import OfflineSchedule.Watch.Typed
/-!
# Watching a con

A session that goes on until the user ends it. One task follows the selection; the loop of the
session takes one notice after the other and prints. While it waits for a reload, notices queue up.
-/

namespace OfflineSchedule.Watch

open Http (Outcome Response)
open Sync (Move)
open Time (Instant)
open Turns (Channel Server TaskId World)

structure Session where
  world : World
  /-- The con that the user wants to see. -/
  con : String
  relay : Relay Resource
  inbox : Inbox Resource := {}
  typed : Typed := {}
  /-- What was printed. -/
  output : String := ""
  isRunning : Bool := true

namespace Session

def convention (s : Session) : Convention := s.world.convention s.world.current

def print (text : String) (s : Session) : Session := { s with output := s.output ++ text }

def printSummary (now : Instant) (s : Session) : Session :=
  s.print (s.convention.summary s.con now).text

/-! ## Notices -/

def actEach (m : Move) (s : Session) : Session :=
  { s with world := s.convention.resources.foldl (fun w r => (w.act w.current r m).2) s.world }

/-- The only follower. -/
def follower : TaskId := .follower 0

/-- Selects another con. -/
def use (con : String) (s : Session) : Session :=
  { s with con, world := (s.world.setChannel 0 { con }).wake follower }

/-- Starts a reload that the loop waits for. -/
def startReload (s : Session) : Session :=
  let rs := s.convention.resources
  { s with
    world := s.world.spawn .main
      { session := s.world.current, strands := World.strands rs .reload } }

def clear (s : Session) : Session := (s.actEach .clear).print Client.clearedText

/-- Ends the session. -/
def stop (s : Session) : Session :=
  { { s with world := s.world.abandon follower }.actEach .shutdown with isRunning := false }

def perform (now : Instant) (a : Action) (s : Session) : Session :=
  match a with
  | .use con => s.use con
  | .reload => s.startReload
  | .clear => s.clear
  | .status => s.printSummary now
  | .help => s.print (helpText ++ "\n")
  | .quit => s.stop

/-- Reacts to a notice. An empty line means nothing. -/
def react (now : Instant) (n : Notice Resource) (s : Session) : Session :=
  match n with
  | .changed rs =>
    (s.print ("-- updated: " ++ ", ".intercalate (rs.map Resource.name) ++ "\n")).printSummary now
  | .line text =>
    match Action.ofLine text with
    | .ok a => s.perform now a
    | .error .empty => s
    | .error e => s.print (e.message ++ "\n")
  | .closed => s.stop

/-! ## The loop -/

/-- Whether the loop waits for a reload. -/
def isWaiting (s : Session) : Bool := (s.world.task? .main).isSome

/-- Goes on with the reload that the loop waits for, and prints how it ended. -/
def continueReload (s : Session) : Session :=
  let w := { s.world with isMainWoken := false }.turn .main
  match w.result? .main with
  | none => { s with world := w }
  | some results =>
    { s with world := { w with results := w.results.filter (·.1 ≠ TaskId.main) } }.print
      (Client.reloadText results)

/-- Takes notices until there is none, or until a reload has to be waited for. -/
def loop (now : Instant) : (fuel : Nat) → Session → Session
  | 0, s => s
  | fuel + 1, s =>
    if !s.isRunning then s
    else if s.isWaiting then
      if s.world.isMainWoken then loop now fuel s.continueReload else s
    else
      match s.inbox.next with
      | none => s
      | some (n, inbox) => loop now fuel ({ s with inbox }.react now n)

/-- Sends on which resources have published a state. -/
def relayNews (s : Session) : Session :=
  let relay := s.world.news.foldl (fun relay r => relay.publish r) s.relay
  let (relay, inbox) := relay.flush s.inbox
  { s with world := { s.world with news := [] }, relay, inbox }

/-- Lets all tasks run until they have to wait. -/
def settle (s : Session) : Session :=
  { s with world := s.world.settle World.turnLimit }.relayNews

/-- Whether the loop can go on. -/
def canLoop (s : Session) : Bool :=
  s.isRunning && if s.isWaiting then s.world.isMainWoken else !s.inbox.waiting.isEmpty

/-- Goes on until nothing more happens. -/
def calm (now : Instant) : (fuel : Nat) → Session → Session
  | 0, s => s
  | fuel + 1, s =>
    let s := s.settle
    if s.canLoop then calm now fuel (s.loop now World.turnLimit) else s

/-! ## What happens from outside -/

/-- A session that begins. -/
def start (policy : Retry.Policy) (hasAnnouncements : Bool) (store : Store) (server : Server)
    (con : String) : Session :=
  let c := Convention.new policy hasAnnouncements
  let w : World := { policy, hasAnnouncements, store, server, sessions := [c] }
  let s : Session :=
    { con, relay := c.resources.foldl (fun relay r => relay.openChannel r) {}
      world := (w.setChannel 0 { con }).spawn follower { session := 0 } }
  s.print ("Watching " ++ con ++ ". Type 'help' for commands.\n")

def send (notices : List (Notice Resource)) (s : Session) : Session :=
  { s with inbox := notices.foldl (fun b n => b.send n) s.inbox }

/-- Bytes are typed. -/
def type (bytes : List UInt8) (s : Session) : Session :=
  let (notices, typed) := s.typed.feed bytes
  { s with typed }.send notices

/-- The input ends. -/
def close (s : Session) : Session :=
  let (notices, typed) := s.typed.close
  { s with typed }.send notices

/-- Whether a kept request is one for a path. -/
def isFor (path : String) (h : Http.Remote) (w : World) (k : TaskId × Resource × Nat) : Bool :=
  match ((w.convention w.current).get k.2.1).job? k.2.2 with
  | some (.fetching f) => (w.task? k.1).isSome && h.path f.con k.2.1.name = path
  | _ => false

/-- The server answers the oldest request for a path that it has kept, if there is one. -/
def respond? (path : String) (response : Option Response) (s : Session) : Option Session :=
  match s.world.server with
  | .scripted _ => none
  | .remote h =>
    match s.world.kept.find? (isFor path h s.world) with
    | none => none
    | some (id, r, ticket) =>
      match s.world.task? id with
      | none => none
      | some t =>
        let answer := some (s.world.now, Http.outcome (Http.request none response))
        let w := { s.world with kept := s.world.kept.filter (· ≠ (id, r, ticket)) }
        some { s with world := w.spawn id (t.setStrand r (.waiting ticket answer)) }

/-- What was printed since the last time, and the session without it. -/
def takeOutput (s : Session) : String × Session := (s.output, { s with output := "" })

/-- The requests that arrived since the last time, and the session without them. -/
def takeRequests (s : Session) : List Http.Request × Session :=
  match s.world.server with
  | .scripted _ => ([], s)
  | .remote h =>
    let (requests, h) := h.takeRequests
    (requests, { s with world := { s.world with server := .remote h } })

end Session

end OfflineSchedule.Watch
