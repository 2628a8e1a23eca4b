import OfflineSchedule.Turns.Clock
/-!
# Scenarios

A session that a user goes through step by step while a scripted server answers. After each step all
that can happen without time passing has happened, and what the step led to is reported.
-/

namespace OfflineSchedule.Turns

open Http (Outcome)
open Json (Value)
open Retry (Moment)
open Sync (Move Progress)
open Time (Instant)

/-- What is done next. A step that can be about one resource is about the whole convention if none
is given. -/
inductive Step where
  /-- Asks something, in the background under a name, or waits until it is done. -/
  | call (scope : Option Resource) (errand : Errand) (background : Option String)
  | clear (scope : Option Resource)
  | shutdown (scope : Option Resource)
  | advance (nanos : Nat)
  | setRecord (key text : String)
  | removeRecord (key : String)
  /-- Makes operations of the store fail. -/
  | fail (operations : List StoreOperation)
  /-- Ends the session and begins another one over the same store. -/
  | restart
  /-- Follows a selection. -/
  | follow (con : String)
  /-- Changes the selection that is followed. -/
  | select (con : String)
  /-- Says that the selection will not change any more. -/
  | unfollow
  /-- Stops following. -/
  | abandonFollower
  | summary (con : String) (now : Instant)

inductive Result where
  | ok
  | spawned
  | flag (value : Bool)
  | text (value : String)
  /-- How a call ended for each resource. -/
  | ended (scope : Option Resource) (errand : Errand) (results : List (Resource × Progress))
  /-- How a reload in the background ended. -/
  | reloaded (result : Progress)
  /-- The step is about announcements, which the convention does not have. -/
  | noAnnouncements

/-- Work in the background that has not been reported. -/
structure Pending where
  name : String
  session : Nat
  id : TaskId
  scope : Option Resource := none
  errand : Errand := .reload

structure Scenario where
  world : World
  pending : List Pending := []
  /-- Numbers calls in the background. -/
  calls : Nat := 0
  /-- Numbers the reloads that activations hand back. -/
  revalidations : Nat := 0
  /-- How many followers there have been. -/
  followers : Nat := 0
  /-- The versions of the states when they were reported last. -/
  seen : List (Resource × Nat) := []

/-- What a step led to. -/
structure Report where
  result : Result
  moment : Moment
  /-- The requests that were sent, by time and resource. -/
  calls : List Call
  /-- The work in the background that has ended. -/
  done : List (String × Result)
  /-- Whether the last follower is at work, if there has been one. -/
  isFollowing : Option Bool
  convention : Convention
  /-- The resources that have published a state. -/
  changed : List Resource
  store : Store

namespace Scenario

/-- A scenario at its start. -/
def new (policy : Retry.Policy) (hasAnnouncements : Bool) (store : Store) : Scenario :=
  { world := { policy, hasAnnouncements, store, sessions := [.new policy hasAnnouncements] } }

/-- Changes what the server is going to say. -/
def updateScript (f : Script → Script) (s : Scenario) : Scenario :=
  match s.world.server with
  | .scripted script => { s with world := { s.world with server := .scripted (f script) } }
  | .remote _ => s

def convention (s : Scenario) : Convention := s.world.convention s.world.current

/-! ## Work in the background -/

/-- The reloads in the background that an activation hands back. -/
def handedBack (session : Nat) (results : List (Resource × Progress)) : List TaskId :=
  results.filterMap fun
    | (r, .cached (some ticket)) => some (.revalidation session r ticket)
    | _ => none

def addRevalidation (session : Nat) (id : TaskId) (s : Scenario) : Scenario :=
  let number := s.revalidations + 1
  { s with
    pending := s.pending ++ [{ name := "revalidation-" ++ toString number, session, id }]
    revalidations := number }

/-- Takes over the reloads that an activation hands back. -/
def adopt (session : Nat) (results : List (Resource × Progress)) (s : Scenario) : Scenario :=
  (handedBack session results).foldl (fun s id => s.addRevalidation session id) s

/-- The result of a task that has ended. -/
def resultOf (p : Pending) (results : List (Resource × Progress)) : Result :=
  match p.id, results with
  | .revalidation .., [(_, result)] => .reloaded result
  | _, _ => .ended p.scope p.errand results

/-- The work in the background that has ended. What it hands back is looked at as well. -/
def collect : (fuel : Nat) → Scenario → List (String × Result) × Scenario
  | 0, s => ([], s)
  | fuel + 1, s =>
    match s.pending.find? fun p => (s.world.result? p.id).isSome with
    | none => ([], s)
    | some p =>
      let results := (s.world.result? p.id).getD []
      let s := { s with pending := s.pending.filter (·.id ≠ p.id) }
      let (done, s) := collect fuel (s.adopt p.session results)
      ((p.name, resultOf p results) :: done, s)

/-! ## Steps -/

/-- The resources that a step is about, if the convention has them. -/
def scope? (scope : Option Resource) (s : Scenario) : Option (List Resource) :=
  match scope with
  | none => some s.convention.resources
  | some r => if s.convention.has r then some [r] else none

/-- Lets something that needs no waiting happen to some resources. -/
def actEach (rs : List Resource) (m : Move) (s : Scenario) : Scenario :=
  { s with world := rs.foldl (fun w r => (w.act w.current r m).2) s.world }

def callTask (rs : List Resource) (e : Errand) (s : Scenario) : Task :=
  { session := s.world.current, strands := World.strands rs e.move }

/-- A call that is waited for. -/
def await (scope : Option Resource) (rs : List Resource) (e : Errand) (s : Scenario) :
    Result × Scenario :=
  let w := { s.world with results := s.world.results.filter (·.1 ≠ TaskId.main) }
  let w := (w.spawn .main (s.callTask rs e)).await World.turnLimit
  let results := (w.result? .main).getD []
  (.ended scope e results, { s with world := w }.adopt w.current results)

/-- A call in the background. -/
def spawn (name : String) (scope : Option Resource) (rs : List Resource) (e : Errand)
    (s : Scenario) : Scenario :=
  { s with
    world := s.world.spawn (.call s.calls) (s.callTask rs e)
    pending := s.pending ++ [⟨name, s.world.current, .call s.calls, scope, e⟩]
    calls := s.calls + 1 }

/-- Begins another session. -/
def restart (s : Scenario) : Scenario :=
  let w := s.world
  let old := w.current
  let w := { w with sessions := w.sessions ++ [Convention.new w.policy w.hasAnnouncements] }
  { s with world := w.releaseAll old, seen := [] }

/-- Changes the channel of the last follower. -/
def updateChannel (f : Channel → Channel) (s : Scenario) : Scenario :=
  let number := s.followers - 1
  match s.world.channel? number with
  | some c => { s with world := (s.world.setChannel number (f c)).wake (.follower number) }
  | none => s

def follow (con : String) (s : Scenario) : Scenario :=
  let s := s.updateChannel ({ · with isOpen := false })
  let id := TaskId.follower s.followers
  { s with
    world := (s.world.setChannel s.followers { con }).spawn id { session := s.world.current }
    followers := s.followers + 1 }

/-- Whether the last follower is at work. -/
def isFollowing (s : Scenario) : Bool := (s.world.task? (.follower (s.followers - 1))).isSome

/-- Whether a new selection would reach a follower. -/
def canSelect (s : Scenario) : Bool :=
  s.isFollowing && ((s.world.channel? (s.followers - 1)).any (·.isOpen))

def edit (f : Store → Except StoreError Store) (s : Scenario) : Result × Scenario :=
  match f s.world.store with
  | .ok store => (.flag true, { s with world := { s.world with store } })
  | .error _ => (.flag false, s)

/-- The effect of a step itself. -/
def apply (s : Scenario) : Step → Result × Scenario
  | .call scope e background =>
    match s.scope? scope with
    | none => (.noAnnouncements, s)
    | some rs => match background with
      | some name => (.spawned, s.spawn name scope rs e)
      | none => s.await scope rs e
  | .clear scope =>
    match s.scope? scope with
    | none => (.noAnnouncements, s)
    | some rs => (.ok, s.actEach rs .clear)
  | .shutdown scope =>
    match s.scope? scope with
    | none => (.noAnnouncements, s)
    | some rs => (.ok, s.actEach rs .shutdown)
  | .advance nanos =>
    (.ok, { s with world := s.world.wait World.turnLimit (s.world.now + nanos) })
  | .setRecord key text => s.edit (·.set key text)
  | .removeRecord key => s.edit (·.remove key)
  | .fail operations =>
    let store := { s.world.store with failing := operations }
    (.ok, { s with world := { s.world with store } })
  | .restart => (.ok, s.restart)
  | .follow con => (.ok, s.follow con)
  | .select con =>
    if s.canSelect then (.flag true, s.updateChannel ({ · with con, isNew := true }))
    else (.flag false, s)
  | .unfollow => (.ok, s.updateChannel ({ · with isOpen := false }))
  | .abandonFollower =>
    (.ok, { s with world := s.world.abandon (.follower (s.followers - 1)) })
  | .summary con now => (.text (s.convention.summary con now).text, s)

/-! ## Reports -/

def callIsBefore (a b : Call) : Bool :=
  a.moment < b.moment ||
    (a.moment = b.moment &&
      Resource.all.findIdx (· = a.resource) ≤ Resource.all.findIdx (· = b.resource))

def version (r : Resource) (s : Scenario) : Nat := (s.convention.get r).sync.version

def lastSeen (r : Resource) (s : Scenario) : Nat := ((s.seen.find? (·.1 = r)).map (·.2)).getD 0

/-- Reports what has happened since the last report. -/
def report (result : Result) (s : Scenario) : Report × Scenario :=
  let (done, s) := s.collect World.turnLimit
  let report : Report :=
    { result, moment := s.world.now, calls := s.world.calls.reverse.mergeSort callIsBefore, done
      isFollowing := if s.followers = 0 then none else some s.isFollowing
      convention := s.convention
      changed := Resource.all.filter fun r => s.version r ≠ s.lastSeen r
      store := s.world.store }
  (report,
    { s with
      world := { s.world with calls := [] }
      seen := Resource.all.map fun r => (r, s.version r) })

/-- Does a step and all that follows from it at once. -/
def step (s : Scenario) (st : Step) : Report × Scenario :=
  let (result, s) := s.apply st
  { s with world := s.world.settle World.turnLimit }.report result

end Scenario

end OfflineSchedule.Turns
