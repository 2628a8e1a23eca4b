import OfflineSchedule.Convention
import OfflineSchedule.Http.Remote
/-!
# Tasks

Work that takes turns: calls on a convention, reloads in the background, retry loops, retry timers
and followers of a selection. A task consists of strands, one for each resource that it is about,
which go on independently of each other. The server that they ask answers after a delay, or when it
is told what to answer.
-/

namespace OfflineSchedule.Turns

open Http (Outcome)
open Json (Value)
open Retry (Moment)
open Sync (Move Progress)

/-! ## The server -/

/-- What the server says, and how long that takes in nanoseconds. -/
structure Reply where
  delay : Nat
  outcome : Outcome Value

/-- What a server is going to say, whatever con it is asked about. -/
structure Script where
  /-- What is answered next. -/
  queued : List (Resource × Reply) := []
  /-- What is answered when nothing is queued; nobody is there otherwise. -/
  standard : List (Resource × Outcome Value) := []

namespace Script

/-- The first reply that is queued for a resource, and the others. -/
def takeQueued (r : Resource) : List (Resource × Reply) → Option (Reply × List (Resource × Reply))
  | [] => none
  | (s, reply) :: rest =>
    if s = r then some (reply, rest)
    else (takeQueued r rest).map fun (found, rest) => (found, (s, reply) :: rest)

def ask (r : Resource) (s : Script) : Reply × Script :=
  match takeQueued r s.queued with
  | some (reply, rest) => (reply, { s with queued := rest })
  | none =>
    (⟨0, ((s.standard.find? (·.1 = r)).map (·.2)).getD (.error Http.transportCode)⟩, s)

def push (r : Resource) (reply : Reply) (s : Script) : Script :=
  { s with queued := s.queued ++ [(r, reply)] }

def setStandard (r : Resource) (o : Outcome Value) (s : Script) : Script :=
  { s with standard := (r, o) :: s.standard }

end Script

inductive Server where
  | scripted (s : Script)
  /-- Answers without delay, if it does. -/
  | remote (h : Http.Remote)

/-- Asks for a resource of a con. There is no reply if the server keeps the request. -/
def Server.ask (r : Resource) (con : String) (etag : Option String) :
    Server → Option Reply × Server
  | scripted s =>
    let (reply, s) := s.ask r
    (some reply, scripted s)
  | remote h =>
    let (o, h) := h.ask con r.name etag
    (o.map (⟨0, ·⟩), remote h)

/-! ## Tasks -/

/-- The name of a task. Sessions are numbered: one ends, and another begins, when the program is
started again. -/
inductive TaskId where
  /-- What the user waits for. -/
  | main
  | call (number : Nat)
  | revalidation (session : Nat) (r : Resource) (ticket : Nat)
  | retries (session : Nat) (r : Resource)
  | timer (session : Nat) (r : Resource) (number : Nat)
  | follower (number : Nat)
deriving DecidableEq, Repr

/-- What a call asks of a resource. -/
inductive Errand where
  | activate (con : String)
  | refresh (con : String)
  | reload
deriving DecidableEq, Repr

def Errand.move : Errand → Move
  | activate con => .activate con
  | refresh con => .refresh con
  | reload => .reload

inductive Strand where
  /-- Begins with a move. -/
  | fresh (move : Move)
  /-- Waits for the answer to a request, which may be known already and arrives later. -/
  | waiting (ticket : Nat) (answer : Option (Moment × Outcome Value))
  /-- Waits for the end of a reload in the background. -/
  | joining (ticket : Nat)
  | finished (result : Progress)

def Strand.result? : Strand → Option Progress
  | finished result => some result
  | _ => none

structure Task where
  session : Nat
  strands : List (Resource × Strand) := []
  /-- The turns that it has had. -/
  turns : Nat := 0

namespace Task

/-- The results of all strands, once there are all. -/
def results? (t : Task) : Option (List (Resource × Progress)) :=
  t.strands.mapM fun (r, s) => s.result?.map (r, ·)

/-- In each turn the strands go on in order, but the first one is another one each time. -/
def order (t : Task) : List Resource :=
  let k := t.turns % Resource.all.length
  Resource.all.drop k ++ Resource.all.take k

def strand? (r : Resource) (t : Task) : Option Strand := (t.strands.find? (·.1 = r)).map (·.2)

def setStrand (r : Resource) (s : Strand) (t : Task) : Task :=
  { t with strands := t.strands.map fun p => if p.1 = r then (r, s) else p }

/-- Whether a strand is about a resource. -/
def isAbout (r : Resource) (t : Task) : Bool := t.strands.any (·.1 = r)

/-- Whether a strand waits for the end of a reload. -/
def joins (session : Nat) (r : Resource) (ticket : Nat) (t : Task) : Bool :=
  t.session = session && match t.strand? r with
    | some (.joining k) => k = ticket
    | _ => false

end Task

end OfflineSchedule.Turns
