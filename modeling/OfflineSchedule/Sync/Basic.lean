import OfflineSchedule.Cache.Usable
import OfflineSchedule.Http.Answer
import OfflineSchedule.Retry.Scheduler
import OfflineSchedule.Sync.Published
/-!
# Synchronizing one resource

Ties together the con that is selected, the state that is published, the cache and the server. A
request carries a number, and its answer counts only as long as no later number has been given out.
Whatever is published belongs to one con; while another con is selected, readers see it as pending.
-/

namespace OfflineSchedule

open Http (Outcome)
open Json (Value)
open Retry (Moment Policy)

structure Sync (r : Resource) where
  /-- The con that was asked for last. -/
  selected : Option String := none
  /-- The con of the value on display. -/
  shown : Option String := none
  /-- The con that the published state belongs to. -/
  owner : Option String := none
  /-- The number of the last request. -/
  issued : Nat := 0
  /-- Whether a value out of the cache has been revalidated once. -/
  revalidated : Bool := false
  published : Sync.Published r.Live := .pending
  /-- How often a state has been published. -/
  version : Nat := 0
  retry : Retry.Scheduler := {}

namespace Sync

variable {r : Resource}

/-! ## Readers -/

/-- The published state if it belongs to the selected con. -/
def current (s : Sync r) : Published r.Live :=
  if s.owner = s.selected then s.published else .pending

def status (s : Sync r) : Status := s.current.status

def isNotFound (s : Sync r) : Bool := s.current.isNotFound

def dataOr (default : r.Live) (s : Sync r) : r.Live := s.current.valueOr default

/-- Whether stale data is going to be fetched again. -/
def isRetrying (s : Sync r) : Bool := s.retry.isPending

/-! ## Changes -/

/-- Publishes a state that belongs to a con. -/
def publish (con : String) (p : Published r.Live) (s : Sync r) : Sync r :=
  { s with owner := some con, published := p, version := s.version + 1 }

/-- Puts a value of a con on display. -/
def display (con : String) (value : r.Live) (etag : Option String) (s : Sync r) : Sync r :=
  { s.publish con (.success value etag) with shown := some con }

def resetRetry (s : Sync r) : Sync r := { s with retry := s.retry.reset }

/-- Selects a con. Retries belong to the con that was selected before. -/
def select (con : String) (s : Sync r) : Sync r :=
  if s.selected = some con then s else { s with selected := some con }.resetRetry

/-! ## Activation -/

/-- How a con was activated. -/
inductive Activation where
  /-- Its value is on display already. -/
  | unchanged
  /-- Its value was found in the cache, and is to be revalidated or not. -/
  | cached (revalidates : Bool)
  /-- There is nothing to show, and a reload has to follow. -/
  | missed
deriving DecidableEq, Repr

/-- Whether the value of a con is selected and on display. -/
def isShowing (con : String) (s : Sync r) : Bool :=
  s.selected = some con && s.owner = some con && s.published.isSuccess

/-- Selects a con and shows what is cached of it. Requests that are out no longer count then. -/
def activate (con : String) (store : Store) (s : Sync r) : Activation × Sync r :=
  if s.isShowing con then (.unchanged, s)
  else
    let s := s.select con
    match Cache.usable? r store con with
    | none => (.missed, s)
    | some (value, etag) =>
      (.cached !s.revalidated,
        { s.display con value etag with issued := s.issued + 1, revalidated := true })

/-! ## Requests -/

/-- A request that is out. -/
structure Flight where
  con : String
  number : Nat
  /-- The server is to answer with a payload only if it has another etag. -/
  etag : Option String
deriving DecidableEq, Repr

/-- Makes a request for the selected con, if there is one. It takes the place of a retry that
waits. -/
def issue (store : Store) (s : Sync r) : Option (Flight × Sync r) :=
  match s.selected with
  | none => none
  | some con =>
    let s := { s with issued := s.issued + 1, retry := s.retry.cancelPending }
    some (⟨con, s.issued, Cache.etag? r store con⟩, s)

/-- Whether no later request has been made. -/
def isLatest (f : Flight) (s : Sync r) : Bool := s.issued = f.number

/-! ## Answers -/

/-- Shows a payload. One that the server takes for outdated is asked for again later. -/
def receive (policy : Policy) (now : Moment) (f : Flight) (value : r.Live) (etag : Option String)
    (stale : Bool) (s : Sync r) : Sync r :=
  let s := s.display f.con value etag
  if stale then { s with retry := (s.retry.onStale policy now).2 } else s.resetRetry

/-- Shows the cached value that the server confirmed. -/
def confirm (f : Flight) (value : r.Live) (etag : Option String) (s : Sync r) : Sync r :=
  (s.display f.con value etag).resetRetry

/-- Notes a failure. A value of the same con stays on display. -/
def fail (f : Flight) (code : Nat) (s : Sync r) : Sync r :=
  if s.published.isSuccess && s.shown = some f.con then
    { s with owner := some f.con }.resetRetry
  else { s.publish f.con (.error code) with shown := none }.resetRetry

/-- What an answer leads to. -/
inductive Verdict where
  | ended (reload : Reload)
  /-- Another request has to be made. -/
  | again (flight : Flight)
deriving DecidableEq, Repr

/-- The code of a failure for a confirmation that confirms nothing. -/
def notModifiedCode : Nat := 304

/-- Handles a failed answer. -/
def settleFailure (f : Flight) (code : Nat) (s : Sync r) : Verdict × Sync r :=
  if s.isLatest f then (.ended (.failed code), s.fail f code) else (.ended .superseded, s)

/-- Handles the answer to a request. A payload is kept in the cache unless it is stale. A
confirmation counts for what the cache holds by now; if that cannot be used, it is dropped and the
request is made again without a condition. -/
def answer (policy : Policy) (now : Moment) (f : Flight) (o : Outcome Value) (store : Store)
    (s : Sync r) : Verdict × Store × Sync r :=
  match o with
  | .success payload etag stale =>
    match r.liveOfValue payload with
    | .ok value =>
      if s.isLatest f then
        (.ended (.updated stale), if stale then store else Cache.keep r store f.con value etag,
          s.receive policy now f value etag stale)
      else (.ended .superseded, store, s)
    | .error _ =>
      let (v, s) := s.settleFailure f Http.transportCode
      (v, store, s)
  | .notModified =>
    match Cache.usable? r store f.con with
    | some (value, etag) =>
      if s.isLatest f then (.ended .notModified, store, s.confirm f value etag)
      else (.ended .superseded, store, s)
    | none =>
      if f.etag.isSome then (.again { f with etag := none }, Cache.drop r store, s)
      else
        let (v, s) := s.settleFailure f notModifiedCode
        (v, store, s)
  | .error code =>
    let (v, s) := s.settleFailure f code
    (v, store, s)

end Sync

end OfflineSchedule
