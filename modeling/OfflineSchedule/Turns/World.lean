import OfflineSchedule.Turns.Task
/-!
# Taking turns

Several sessions over one store, and the tasks that work on them. One task runs at a time and goes
on until it has to wait. Tasks that are woken queue up, and what the user waits for comes last.
-/

namespace OfflineSchedule.Turns

open Http (Outcome)
open Json (Value)
open Retry (Moment)
open Sync (Move Progress)

/-- A request that was sent. -/
structure Call where
  resource : Resource
  con : String
  etag : Option String
  moment : Moment

/-- A selection that a follower follows. -/
structure Channel where
  con : String
  /-- Whether the follower has not seen it. -/
  isNew : Bool := true
  isOpen : Bool := true

structure World where
  policy : Retry.Policy
  hasAnnouncements : Bool
  store : Store
  server : Server := .scripted {}
  now : Moment := 0
  /-- Oldest first. -/
  sessions : List Convention := []
  tasks : List (TaskId × Task) := []
  /-- The tasks that were woken, in order. -/
  queue : List TaskId := []
  isMainWoken : Bool := false
  /-- When tasks want to be woken, in the order in which they said so. -/
  alarms : List (Moment × TaskId) := []
  /-- Backwards. -/
  calls : List Call := []
  results : List (TaskId × List (Resource × Progress)) := []
  channels : List (Nat × Channel) := []
  /-- Numbers retry timers. -/
  timers : Nat := 0
  /-- The resources of the current session that have published a state, in order. -/
  news : List Resource := []
  /-- The requests that the server has kept, by who waits for them, in order. -/
  kept : List (TaskId × Resource × Nat) := []

namespace World

/-! ## Tasks -/

def task? (id : TaskId) (w : World) : Option Task := (w.tasks.find? (·.1 = id)).map (·.2)

def dropTask (id : TaskId) (w : World) : World :=
  { w with tasks := w.tasks.filter (·.1 ≠ id) }

def setTask (id : TaskId) (t : Task) (w : World) : World :=
  { w with tasks := (id, t) :: (w.dropTask id).tasks }

/-- Wakes a task. -/
def wake (id : TaskId) (w : World) : World :=
  if id = .main then { w with isMainWoken := true }
  else if id ∈ w.queue then w
  else { w with queue := w.queue ++ [id] }

def spawn (id : TaskId) (t : Task) (w : World) : World := (w.setTask id t).wake id

def setAlarm (due : Moment) (id : TaskId) (w : World) : World :=
  { w with alarms := w.alarms ++ [(due, id)] }

def result? (id : TaskId) (w : World) : Option (List (Resource × Progress)) :=
  (w.results.find? (·.1 = id)).map (·.2)

/-! ## Sessions -/

def current (w : World) : Nat := w.sessions.length - 1

def convention (session : Nat) (w : World) : Convention :=
  w.sessions[session]?.getD (.new w.policy w.hasAnnouncements)

def setConvention (session : Nat) (c : Convention) (w : World) : World :=
  { w with sessions := w.sessions.set session c }

/-- Whether a task works on a resource of a session, so that it lives on when the session has
ended. -/
def isHeld (session : Nat) (r : Resource) (w : World) : Bool :=
  session = w.current || w.tasks.any fun (id, t) =>
    t.session = session && match id with
      | .timer .. => false
      | .follower _ => true
      | _ => t.isAbout r

/-! ## Moves -/

def isTimerOf (session : Nat) (r : Resource) : TaskId → Bool
  | .timer s q _ => s = session && q = r
  | _ => false

def dropTimers (session : Nat) (r : Resource) (w : World) : World :=
  { w with tasks := w.tasks.filter fun (id, _) => !isTimerOf session r id }

/-- Starts the task of a retry timer. -/
def spawnTimer (session : Nat) (r : Resource) (w : World) : World :=
  { w.dropTimers session r with timers := w.timers + 1 }.spawn (.timer session r w.timers)
    { session }

/-- Starts the task of a reload in the background. -/
def spawnRevalidation (session : Nat) (r : Resource) (ticket : Nat) (w : World) : World :=
  w.spawn (.revalidation session r ticket)
    { session, strands := [(r, .fresh (.start ticket))] }

/-- Lets the convention make a move, and notes what is news. -/
def make (session : Nat) (r : Resource) (m : Move) (w : World) : Progress × World :=
  let before := w.convention session
  let (p, store, c) := before.step r m w.store
  let isNews := session = w.current && (c.get r).sync.version ≠ (before.get r).sync.version
  let news := if isNews then w.news ++ [r] else w.news
  (p, { w with store, news }.setConvention session c)

def isRetrying (session : Nat) (r : Resource) (w : World) : Bool :=
  ((w.convention session).get r).sync.isRetrying

/-- A timer that was stopped loses its task. -/
def stopTimers (session : Nat) (r : Resource) (w : World) : World :=
  if w.isRetrying session r then w else w.dropTimers session r

/-- Starts the tasks that a move has asked for. -/
def startTasks (session : Nat) (r : Resource) (p : Progress) (w : World) : World :=
  match p with
  | .cached (some ticket) | .joined ticket => w.spawnRevalidation session r ticket
  | .ended (.updated true) => if w.isRetrying session r then w.spawnTimer session r else w
  | _ => w

/-- Makes a move, and starts the tasks that it asks for. -/
def act (session : Nat) (r : Resource) (m : Move) (w : World) : Progress × World :=
  let (p, w) := w.make session r m
  (p, (w.stopTimers session r).startTasks session r p)

/-- Stops the retries of a resource of an old session that nobody holds. -/
def release (session : Nat) (r : Resource) (w : World) : World :=
  if w.isHeld session r then w else (w.act session r .shutdown).2

def releaseAll (session : Nat) (w : World) : World :=
  Resource.all.foldl (fun w r => w.release session r) w

/-! ## Strands -/

/-- A reload makes so many requests at most. -/
def requestLimit : Nat := 2

/-- Goes on with a strand after a move. A request is answered at once if there is no delay. -/
def proceed (id : TaskId) (session : Nat) (r : Resource) :
    (requests : Nat) → Progress → World → Strand × World
  | requests + 1, .sent ticket f, w =>
    let call : Call := ⟨r, f.con, f.etag, w.now⟩
    let w := { w with calls := call :: w.calls }
    match w.server.ask r f.con f.etag with
    | (none, server) =>
      (.waiting ticket none, { w with server, kept := w.kept ++ [(id, r, ticket)] })
    | (some reply, server) =>
      let w := { w with server }
      if reply.delay = 0 then
        let (p, w) := w.act session r (.answer ticket w.now reply.outcome)
        proceed id session r requests p w
      else
        let due := w.now + reply.delay
        (.waiting ticket (some (due, reply.outcome)), w.setAlarm due id)
  | _, .joined ticket, w => (.joining ticket, w)
  | _, p, w => (.finished p, w)

def move (id : TaskId) (session : Nat) (r : Resource) (m : Move) (w : World) : Strand × World :=
  let (p, w) := w.act session r m
  proceed id session r requestLimit p w

/-- Lets a strand go on as far as it can. -/
def runStrand (id : TaskId) (session : Nat) (r : Resource) (s : Strand) (w : World) :
    Strand × World :=
  match s with
  | .fresh m => w.move id session r m
  | .waiting ticket (some (due, o)) =>
    if due ≤ w.now then w.move id session r (.answer ticket w.now o) else (s, w)
  | .joining ticket =>
    match w.result? (.revalidation session r ticket) with
    | some [(_, p)] => (.finished p, w)
    | _ => (s, w)
  | _ => (s, w)

def runStrands (id : TaskId) : List Resource → Task → World → Task × World
  | [], t, w => (t, w)
  | r :: rs, t, w =>
    match t.strand? r with
    | some s =>
      let (s, w) := w.runStrand id t.session r s
      runStrands id rs (t.setStrand r s) w
    | none => runStrands id rs t w

/-- Lets all strands of a task go on. -/
def runTask (id : TaskId) (t : Task) (w : World) : Task × World :=
  let (t', w) := w.runStrands id t.order t
  ({ t' with turns := t.turns + 1 }, w)

/-! ## Turns -/

/-- Wakes those tasks for which `p` holds. -/
def wakeAll (p : Task → Bool) (w : World) : World :=
  ((w.tasks.filter fun (_, t) => p t).map (·.1)).foldl (fun w id => w.wake id) w

/-- Wakes the tasks that wait for the end of a task. -/
def wakeJoined (id : TaskId) (w : World) : World :=
  match id with
  | .revalidation session r ticket => w.wakeAll (·.joins session r ticket)
  | _ => w

/-- Notes the results of a task that has ended, and wakes who waits for it. -/
def finish (id : TaskId) (t : Task) (results : List (Resource × Progress)) (w : World) : World :=
  let w := { w.dropTask id with results := (id, results) :: w.results }
  (w.wakeJoined id).releaseAll t.session

/-- The turn of a call or of a reload in the background. -/
def runCall (id : TaskId) (t : Task) (w : World) : World :=
  let (t, w) := w.runTask id t
  match t.results? with
  | some results => w.finish id t results
  | none => w.setTask id t

/-- The turn of a retry timer: at first it sets its alarm. When it ends, the retry loop is woken. -/
def runTimer (id : TaskId) (session : Nat) (r : Resource) (t : Task) (w : World) : World :=
  match ((w.convention session).get r).sync.retry.timer with
  | none => w.dropTask id
  | some due =>
    if due ≤ w.now then ((w.act session r .fire).2.dropTask id).wake (.retries session r)
    else (if t.turns = 0 then w.setAlarm due id else w).setTask id { t with turns := t.turns + 1 }

/-- Takes up retries one after the other, up to `triggers` many. -/
def runTriggers (id : TaskId) (session : Nat) (r : Resource) : (triggers : Nat) → World → World
  | 0, w => w
  | triggers + 1, w =>
    if !w.isHeld session r then w
    else
      let (s, w) :=
        (w.setTask id { session, strands := [(r, .fresh .retry)] }).move id session r .retry
      match s with
      | .finished _ => runTriggers id session r triggers ((w.dropTask id).release session r)
      | s => w.setTask id { session, strands := [(r, s)] }

/-- The turn of a retry loop. Between retries it has no task. -/
def runRetries (id : TaskId) (session : Nat) (r : Resource) (w : World) : World :=
  let (t, w) := w.runTask id ((w.task? id).getD { session })
  match t.results? with
  | some _ =>
    let w := (w.dropTask id).release session r
    w.runTriggers id session r ((w.convention session).get r).triggers
  | none => w.setTask id t

def channel? (number : Nat) (w : World) : Option Channel :=
  (w.channels.find? (·.1 = number)).map (·.2)

def setChannel (number : Nat) (c : Channel) (w : World) : World :=
  { w with channels := (number, c) :: w.channels.filter (·.1 ≠ number) }

/-- The strands of a call on some resources. -/
def strands (rs : List Resource) (m : Move) : List (Resource × Strand) := rs.map (·, .fresh m)

/-- The turn of a follower: it ends one activation before it looks for the next selection. -/
def runFollower (id : TaskId) (number : Nat) : (looks : Nat) → Task → World → World
  | 0, t, w => w.setTask id t
  | looks + 1, t, w =>
    let (t, w) := w.runTask id t
    match t.results?, w.channel? number with
    | none, _ => w.setTask id t
    | some _, none => w.dropTask id
    | some _, some c =>
      if c.isNew then
        let rs := (w.convention t.session).resources
        let t := { session := t.session, strands := strands rs (.activate c.con) }
        runFollower id number looks t (w.setChannel number { c with isNew := false })
      else if c.isOpen then w.setTask id { session := t.session }
      else (w.dropTask id).releaseAll t.session

/-- Gives a task its turn. -/
def turn (id : TaskId) (w : World) : World :=
  match id, w.task? id with
  | .retries session r, _ => w.runRetries id session r
  | _, none => w
  | .timer session r _, some t => w.runTimer id session r t
  | .follower number, some t => w.runFollower id number 3 t
  | _, some t => w.runCall id t

/-- Gives up a task and what it waits for. -/
def abandon (id : TaskId) (w : World) : World :=
  match w.task? id with
  | none => w
  | some t =>
    let give (w : World) : Resource × Strand → World
      | (r, .waiting ticket _) => (w.act t.session r (.abandon ticket)).2
      | _ => w
    (t.strands.foldl give (w.dropTask id)).releaseAll t.session

end World

end OfflineSchedule.Turns
