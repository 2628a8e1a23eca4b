import OfflineSchedule.Summary
import OfflineSchedule.Sync.Machine
/-!
# A convention

All synchronized data of a con: one synchronizer for each resource, over one store. A con without
announcements has no synchronizer for them. What concerns the whole con concerns each of its
resources by itself.
-/

namespace OfflineSchedule

open Sync (Move Machine Progress Status)
open Time (Instant)

structure Convention where
  events : Machine .events
  info : Machine .info
  pages : Machine .pages
  announcements : Machine .announcements
  hasAnnouncements : Bool

namespace Convention

/-- A con before anything has been selected. -/
def new (policy : Retry.Policy) (hasAnnouncements : Bool) : Convention :=
  ⟨⟨policy, {}, [], 0, 0, none⟩, ⟨policy, {}, [], 0, 0, none⟩, ⟨policy, {}, [], 0, 0, none⟩,
    ⟨policy, {}, [], 0, 0, none⟩, hasAnnouncements⟩

def get (c : Convention) : (r : Resource) → Machine r
  | .events => c.events
  | .info => c.info
  | .pages => c.pages
  | .announcements => c.announcements

def set (c : Convention) : (r : Resource) → Machine r → Convention
  | .events, m => { c with events := m }
  | .info, m => { c with info := m }
  | .pages, m => { c with pages := m }
  | .announcements, m => { c with announcements := m }

@[simp] theorem get_set_self (c : Convention) (r : Resource) (m : Machine r) :
    (c.set r m).get r = m := by
  cases r <;> rfl

theorem get_set_of_ne (c : Convention) {r other : Resource} (h : other ≠ r) (m : Machine r) :
    (c.set r m).get other = c.get other := by
  cases r <;> cases other <;> simp_all [get, set]

/-- Whether the con has a resource. -/
def has (c : Convention) (r : Resource) : Bool := r ≠ .announcements || c.hasAnnouncements

/-- The resources of the con. -/
def resources (c : Convention) : List Resource := Resource.all.filter c.has

/-- Lets something happen to one resource. -/
def step (r : Resource) (e : Move) (store : Store) (c : Convention) :
    Progress × Store × Convention :=
  let (p, store, m) := (c.get r).step e store store.failing
  (p, store, c.set r m)

/-- Lets something happen to each of some resources in turn. -/
def stepEach (e : Move) : List Resource → Store → Convention → Store × Convention
  | [], store, c => (store, c)
  | r :: rs, store, c =>
    let (_, store, c) := c.step r e store
    stepEach e rs store c

/-- Drops what is cached of each resource. -/
def clear (store : Store) (c : Convention) : Store × Convention :=
  stepEach .clear c.resources store c

/-- Stops the retries of each resource. -/
def shutdown (store : Store) (c : Convention) : Store × Convention :=
  stepEach .shutdown c.resources store c

/-! ## Readers -/

/-- Whether a resource says that there is no such con. -/
def isNotFound (c : Convention) : Bool := c.resources.any fun r => (c.get r).sync.isNotFound

/-- Whether a resource shows stale data that is going to be fetched again. -/
def isRetrying (c : Convention) : Bool := c.resources.any fun r => (c.get r).sync.isRetrying

/-- The status of a resource that the con has. -/
def status? (c : Convention) (r : Resource) : Option Status :=
  if c.has r then some (c.get r).sync.status else none

/-- The data of a resource. -/
def data (c : Convention) (r : Resource) : r.Live :=
  if c.has r then (c.get r).sync.dataOr r.empty else r.empty

/-- The summary of the con under a name. -/
def summary (c : Convention) (name : String) (now : Instant) : Summary where
  con := name
  now := now
  notFound := c.isNotFound
  retrying := c.isRetrying
  eventsStatus := c.events.sync.status
  infoStatus := c.info.sync.status
  pagesStatus := c.pages.sync.status
  announcementsStatus := c.status? .announcements
  info := c.data .info
  events := c.data .events
  pages := c.data .pages
  announcements := c.data .announcements

end Convention

end OfflineSchedule
