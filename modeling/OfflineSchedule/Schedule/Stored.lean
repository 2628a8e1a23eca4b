import OfflineSchedule.Json.Record
import OfflineSchedule.Schedule.Data
/-!
# Stored shapes

The data of a con as it is sent by the server and kept in the cache: the same records with
timestamps as text. Each shape is read from JSON and written back to it, fields that are not set
being left out.
-/

namespace OfflineSchedule

open Json (Tree Value optionalField)

/-! ## Events -/

structure StoredEvent where
  id : String
  title : String
  description : Option String
  location : Option String
  startTime : String
  endTime : String
  tags : List String
  hosts : List String
deriving DecidableEq, Repr

namespace StoredEvent

def fields : List String :=
  ["id", "title", "description", "location", "startTime", "endTime", "tags", "hosts"]

def ofTree (t : Tree) : Option StoredEvent := do
  let r ← t.record? fields
  let id ← r.required "id" Tree.text?
  let title ← r.required "title" Tree.text?
  let description ← r.withDefault "description" none (Tree.nullable? Tree.text?)
  let location ← r.withDefault "location" none (Tree.nullable? Tree.text?)
  let startTime ← r.required "startTime" Tree.text?
  let endTime ← r.required "endTime" Tree.text?
  let tags ← r.withDefault "tags" [] (Tree.list? Tree.text?)
  let hosts ← r.withDefault "hosts" [] (Tree.list? Tree.text?)
  return ⟨id, title, description, location, startTime, endTime, tags, hosts⟩

def toValue (e : StoredEvent) : Value :=
  .object ([("id", .string e.id), ("title", .string e.title)] ++
    optionalField "description" e.description ++ optionalField "location" e.location ++
    [("startTime", .string e.startTime), ("endTime", .string e.endTime),
      ("tags", .ofTexts e.tags), ("hosts", .ofTexts e.hosts)])

end StoredEvent

/-! ## General information -/

structure StoredLink where
  title : String
  url : String
deriving DecidableEq, Repr

namespace StoredLink

def fields : List String := ["title", "url"]

def ofTree (t : Tree) : Option StoredLink := do
  let r ← t.record? fields
  let title ← r.required "title" Tree.text?
  let url ← r.required "url" Tree.text?
  return ⟨title, url⟩

def toValue (l : StoredLink) : Value := .object [("title", .string l.title), ("url", .string l.url)]

end StoredLink

structure StoredInfo where
  name : String
  description : Option String
  timezone : Option String
  startDate : Option String
  endDate : Option String
  links : List StoredLink
deriving DecidableEq, Repr

namespace StoredInfo

def fields : List String := ["name", "description", "timezone", "startDate", "endDate", "links"]

def ofTree (t : Tree) : Option StoredInfo := do
  let r ← t.record? fields
  let name ← r.required "name" Tree.text?
  let description ← r.withDefault "description" none (Tree.nullable? Tree.text?)
  let timezone ← r.withDefault "timezone" none (Tree.nullable? Tree.text?)
  let startDate ← r.withDefault "startDate" none (Tree.nullable? Tree.text?)
  let endDate ← r.withDefault "endDate" none (Tree.nullable? Tree.text?)
  let links ← r.withDefault "links" [] (Tree.list? StoredLink.ofTree)
  return ⟨name, description, timezone, startDate, endDate, links⟩

def toValue (i : StoredInfo) : Value :=
  .object ([("name", .string i.name)] ++ optionalField "description" i.description ++
    optionalField "timezone" i.timezone ++ optionalField "startDate" i.startDate ++
    optionalField "endDate" i.endDate ++ [("links", .array (i.links.map StoredLink.toValue))])

end StoredInfo

/-! ## Pages -/

structure StoredPage where
  id : String
  title : String
  slug : String
  body : String
deriving DecidableEq, Repr

namespace StoredPage

def fields : List String := ["id", "title", "slug", "body"]

def ofTree (t : Tree) : Option StoredPage := do
  let r ← t.record? fields
  let id ← r.required "id" Tree.text?
  let title ← r.required "title" Tree.text?
  let slug ← r.required "slug" Tree.text?
  let body ← r.withDefault "body" "" Tree.text?
  return ⟨id, title, slug, body⟩

def toValue (p : StoredPage) : Value :=
  .object [("id", .string p.id), ("title", .string p.title), ("slug", .string p.slug),
    ("body", .string p.body)]

end StoredPage

/-! ## Announcements -/

structure StoredAnnouncement where
  id : String
  title : String
  body : String
  postedAt : String
deriving DecidableEq, Repr

namespace StoredAnnouncement

def fields : List String := ["id", "title", "body", "postedAt"]

def ofTree (t : Tree) : Option StoredAnnouncement := do
  let r ← t.record? fields
  let id ← r.required "id" Tree.text?
  let title ← r.required "title" Tree.text?
  let body ← r.withDefault "body" "" Tree.text?
  let postedAt ← r.required "postedAt" Tree.text?
  return ⟨id, title, body, postedAt⟩

def toValue (a : StoredAnnouncement) : Value :=
  .object [("id", .string a.id), ("title", .string a.title), ("body", .string a.body),
    ("postedAt", .string a.postedAt)]

end StoredAnnouncement

end OfflineSchedule
