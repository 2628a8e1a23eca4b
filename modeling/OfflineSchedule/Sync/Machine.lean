import OfflineSchedule.Sync.Basic
/-!
# A synchronizer at work

A synchronizer together with the reloads that are under way and the loop that runs its retries.
Between two moves nothing is disturbed, so a run is a list of moves, and any order of answers,
calls and timers is one.
-/

namespace OfflineSchedule.Sync

open Http (Outcome)
open Json (Value)
open Retry (Moment Policy)

/-- A reload under way. -/
inductive Job where
  /-- It runs in the background and has not begun. -/
  | queued
  /-- It waits for an answer. -/
  | fetching (flight : Flight)
deriving DecidableEq, Repr

structure Machine (r : Resource) where
  policy : Policy
  sync : Sync r := {}
  /-- The reloads under way, by their tickets. -/
  jobs : List (Nat × Job) := []
  /-- The ticket that is given out next. -/
  nextTicket : Nat := 0
  /-- Retries that are due and have not begun. -/
  triggers : Nat := 0
  /-- The reload that the retry loop runs at the moment. -/
  loop : Option Nat := none

/-- What happens to a synchronizer. -/
inductive Move where
  | activate (con : String)
  /-- An activation that makes sure of one reload. -/
  | refresh (con : String)
  | reload
  | clear
  | shutdown
  /-- A reload in the background begins. -/
  | start (ticket : Nat)
  /-- The answer to the request of a reload arrives. -/
  | answer (ticket : Nat) (now : Moment) (outcome : Outcome Value)
  /-- A reload is given up by whoever waits for it. -/
  | abandon (ticket : Nat)
  /-- The retry timer ends. -/
  | fire
  /-- The retry loop takes up a retry that is due. -/
  | retry

/-- What a move leads to for whoever caused it. -/
inductive Progress where
  | done
  /-- A con was activated without a request; a reload may begin in the background. -/
  | unchanged
  | cached (revalidation : Option Nat)
  /-- The end of a reload in the background has to be waited for. -/
  | joined (ticket : Nat)
  /-- The answer to a request has to be waited for. -/
  | sent (ticket : Nat) (flight : Flight)
  | ended (reload : Reload)
deriving DecidableEq, Repr

namespace Machine

variable {r : Resource}

def job? (ticket : Nat) (m : Machine r) : Option Job :=
  (m.jobs.find? (·.1 = ticket)).map (·.2)

def eraseJob (ticket : Nat) (m : Machine r) : Machine r :=
  { m with jobs := m.jobs.filter (·.1 ≠ ticket) }

def setJob (ticket : Nat) (job : Job) (m : Machine r) : Machine r :=
  { m with jobs := (ticket, job) :: (m.eraseJob ticket).jobs }

/-- Adds a reload under way. -/
def addJob (job : Job) (m : Machine r) : Nat × Machine r :=
  (m.nextTicket, { m.setJob m.nextTicket job with nextTicket := m.nextTicket + 1 })

/-- Ends a reload. The retry loop is free if it ran it. -/
def endJob (ticket : Nat) (m : Machine r) : Machine r :=
  { m.eraseJob ticket with loop := m.loop.filter (· ≠ ticket) }

theorem job?_eraseJob (k k' : Nat) (m : Machine r) :
    (m.eraseJob k).job? k' = if k' = k then none else m.job? k' := by
  simp only [job?, eraseJob, List.find?_filter]
  by_cases h : k' = k
  · simp [h]
  · rw [if_neg h]
    congr 2
    funext p
    by_cases hp : p.1 = k' <;> simp [hp, h]

theorem job?_setJob (k k' : Nat) (j : Job) (m : Machine r) :
    (m.setJob k j).job? k' = if k' = k then some j else m.job? k' := by
  have h := job?_eraseJob k k' m
  simp only [job?, setJob, List.find?_cons] at h ⊢
  by_cases hk : k' = k
  · simp [hk]
  · simpa [hk, Ne.symm hk] using h

theorem job?_endJob (k k' : Nat) (m : Machine r) :
    (m.endJob k).job? k' = if k' = k then none else m.job? k' := job?_eraseJob k k' m

/-- Begins a reload. -/
def reload (store : Store) (m : Machine r) : Progress × Machine r :=
  match m.sync.issue store with
  | none => (.ended .noInstance, m)
  | some (f, sync) =>
    let (ticket, m) := { m with sync }.addJob (.fetching f)
    (.sent ticket f, m)

/-- Activates a con. What the cache does not have is reloaded, and what it has may be revalidated in
the background. When a request is made after the cache was looked into, the operations in `faults`
fail, which need not be those that failed before. -/
def activate (con : String) (store : Store) (faults : List StoreOperation) (m : Machine r) :
    Progress × Machine r :=
  match m.sync.activate con store with
  | (.unchanged, sync) => (.unchanged, { m with sync })
  | (.missed, sync) => { m with sync }.reload { store with failing := faults }
  | (.cached true, sync) =>
    let (ticket, m) := { m with sync }.addJob .queued
    (.cached (some ticket), m)
  | (.cached false, sync) => (.cached none, { m with sync })

/-- Activates a con and sees to it that it is reloaded once. -/
def refresh (con : String) (store : Store) (faults : List StoreOperation) (m : Machine r) :
    Progress × Machine r :=
  match m.activate con store faults with
  | (.cached (some ticket), m) => (.joined ticket, m)
  | (.cached none, m) | (.unchanged, m) => m.reload { store with failing := faults }
  | result => result

/-- Begins the reload of a ticket that is queued. -/
def start (ticket : Nat) (store : Store) (m : Machine r) : Progress × Machine r :=
  match m.job? ticket with
  | some .queued =>
    match m.sync.issue store with
    | none => (.ended .noInstance, m.endJob ticket)
    | some (f, sync) => (.sent ticket f, { m with sync }.setJob ticket (.fetching f))
  | _ => (.done, m)

/-- Handles the answer to the request of a ticket. -/
def answer (ticket : Nat) (now : Moment) (o : Outcome Value) (store : Store) (m : Machine r) :
    Progress × Store × Machine r :=
  match m.job? ticket with
  | some (.fetching f) =>
    match m.sync.answer m.policy now f o store with
    | (.ended reload, store, sync) => (.ended reload, store, { m with sync }.endJob ticket)
    | (.again f, store, sync) =>
      (.sent ticket f, store, { m with sync }.setJob ticket (.fetching f))
  | _ => (.done, store, m)

/-- Ends the retry timer and leaves a trigger. -/
def fire (m : Machine r) : Machine r :=
  if m.sync.isRetrying then
    { m with
      sync := { m.sync with retry := m.sync.retry.cancelPending }
      triggers := m.triggers + 1 }
  else m

/-- Lets the retry loop take up a trigger, unless it is busy. -/
def retry (store : Store) (m : Machine r) : Progress × Machine r :=
  if m.loop.isSome || m.triggers = 0 then (.done, m)
  else
    match { m with triggers := m.triggers - 1 }.reload store with
    | (.sent ticket f, m) => (.sent ticket f, { m with loop := some ticket })
    | result => result

/-- A result that leaves the store as it is. -/
def beside (store : Store) (result : Progress × Machine r) : Progress × Store × Machine r :=
  (result.1, store, result.2)

/-- The effect of a move on the store and the synchronizer. -/
def step (e : Move) (store : Store) (faults : List StoreOperation) (m : Machine r) :
    Progress × Store × Machine r :=
  match e with
  | .activate con => beside store (m.activate con store faults)
  | .refresh con => beside store (m.refresh con store faults)
  | .reload => beside store (m.reload store)
  | .clear => (.done, Cache.drop r store, m)
  | .shutdown => beside store (.done, { m with sync := m.sync.resetRetry })
  | .start ticket => beside store (m.start ticket store)
  | .answer ticket now o => m.answer ticket now o store
  | .abandon ticket => beside store (.done, m.endJob ticket)
  | .fire => beside store (.done, m.fire)
  | .retry => beside store (m.retry store)

end Machine

end OfflineSchedule.Sync
