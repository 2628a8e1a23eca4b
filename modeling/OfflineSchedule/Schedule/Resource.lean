import OfflineSchedule.Schedule.Stored
import OfflineSchedule.Time.Rfc3339
/-!
# Resources

The four kinds of data that a con publishes, each fetched, shown and stored on its own. A resource
has a live value and a stored shape. Turning a live value into its stored shape always works; the
way back fails at the first timestamp that cannot be read.
-/

namespace OfflineSchedule

open Json (Tree Value)
open Time (Instant Rfc3339.read Rfc3339.write)

inductive Resource where
  | events
  | info
  | pages
  | announcements
deriving DecidableEq, Repr

namespace Resource

def all : List Resource := [events, info, pages, announcements]

/-- Names the resource in requests, in the store and on screen. -/
def name : Resource → String
  | events => "events"
  | info => "info"
  | pages => "pages"
  | announcements => "announcements"

/-- The live value. -/
abbrev Live : Resource → Type
  | events => List Event
  | info => ConInfo
  | pages => List Page
  | announcements => List Announcement

/-- The stored shape. -/
abbrev Stored : Resource → Type
  | events => List StoredEvent
  | info => StoredInfo
  | pages => List StoredPage
  | announcements => List StoredAnnouncement

/-- What is shown while there is nothing to show. -/
def empty : (r : Resource) → r.Live
  | events => []
  | info => {}
  | pages => []
  | announcements => []

instance : (r : Resource) → DecidableEq r.Live
  | events => inferInstanceAs (DecidableEq (List Event))
  | info => inferInstanceAs (DecidableEq ConInfo)
  | pages => inferInstanceAs (DecidableEq (List Page))
  | announcements => inferInstanceAs (DecidableEq (List Announcement))

end Resource

/-! ## Timestamps -/

/-- A timestamp field whose text is no timestamp. -/
structure TimestampError where
  field : String
  value : String
deriving DecidableEq, Repr

def TimestampError.message (e : TimestampError) : String :=
  "invalid timestamp in field " ++ e.field ++ ": " ++ e.value

def readTimestamp (field value : String) : Except TimestampError Instant :=
  match Rfc3339.read value with
  | some t => .ok t
  | none => .error ⟨field, value⟩

def readOptionalTimestamp (field : String) : Option String → Except TimestampError (Option Instant)
  | none => .ok none
  | some value => (readTimestamp field value).map some

/-! ## From stored to live and back -/

def Event.ofStored (e : StoredEvent) : Except TimestampError Event := do
  let starts ← readTimestamp "startTime" e.startTime
  let ends ← readTimestamp "endTime" e.endTime
  return ⟨e.id, e.title, e.description, e.location, starts, ends, e.tags, e.hosts⟩

def Event.toStored (e : Event) : StoredEvent :=
  ⟨e.id, e.title, e.description, e.location, Rfc3339.write e.starts, Rfc3339.write e.ends, e.tags,
    e.hosts⟩

def Link.ofStored (l : StoredLink) : Link := ⟨l.title, l.url⟩

def Link.toStored (l : Link) : StoredLink := ⟨l.title, l.url⟩

def ConInfo.ofStored (i : StoredInfo) : Except TimestampError ConInfo := do
  let starts ← readOptionalTimestamp "startDate" i.startDate
  let ends ← readOptionalTimestamp "endDate" i.endDate
  return ⟨i.name, i.description, i.timezone, starts, ends, i.links.map Link.ofStored⟩

def ConInfo.toStored (i : ConInfo) : StoredInfo :=
  ⟨i.name, i.description, i.timezone, i.starts.map Rfc3339.write, i.ends.map Rfc3339.write,
    i.links.map Link.toStored⟩

def Page.ofStored (p : StoredPage) : Page := ⟨p.id, p.title, p.slug, p.body⟩

def Page.toStored (p : Page) : StoredPage := ⟨p.id, p.title, p.slug, p.body⟩

def Announcement.ofStored (a : StoredAnnouncement) : Except TimestampError Announcement := do
  let postedAt ← readTimestamp "postedAt" a.postedAt
  return ⟨a.id, a.title, a.body, postedAt⟩

def Announcement.toStored (a : Announcement) : StoredAnnouncement :=
  ⟨a.id, a.title, a.body, Rfc3339.write a.postedAt⟩

namespace Resource

def toStored : (r : Resource) → r.Live → r.Stored
  | events, es => es.map Event.toStored
  | info, i => i.toStored
  | pages, ps => ps.map Page.toStored
  | announcements, as => as.map Announcement.toStored

def ofStored : (r : Resource) → r.Stored → Except TimestampError r.Live
  | events, es => es.mapM Event.ofStored
  | info, i => ConInfo.ofStored i
  | pages, ps => .ok (ps.map Page.ofStored)
  | announcements, as => as.mapM Announcement.ofStored

/-! ## Stored shapes as JSON -/

def storedOfTree : (r : Resource) → Tree → Option r.Stored
  | events => Tree.list? StoredEvent.ofTree
  | info => StoredInfo.ofTree
  | pages => Tree.list? StoredPage.ofTree
  | announcements => Tree.list? StoredAnnouncement.ofTree

def storedToValue : (r : Resource) → r.Stored → Value
  | events, es => .array (es.map StoredEvent.toValue)
  | info, i => i.toValue
  | pages, ps => .array (ps.map StoredPage.toValue)
  | announcements, as => .array (as.map StoredAnnouncement.toValue)

/-- Why a payload has no live value. -/
inductive PayloadError where
  | shape
  | timestamp (e : TimestampError)
deriving DecidableEq, Repr

/-- The live value of a tree in the stored shape. The shape of all of it is checked first. -/
def liveOfTree (r : Resource) (t : Tree) : Except PayloadError r.Live :=
  match r.storedOfTree t with
  | none => .error .shape
  | some s =>
    match r.ofStored s with
    | .ok live => .ok live
    | .error e => .error (.timestamp e)

/-- The live value of a payload, all of which has been kept. -/
def liveOfValue (r : Resource) (v : Value) : Except PayloadError r.Live := r.liveOfTree v.toTree

end Resource

end OfflineSchedule
