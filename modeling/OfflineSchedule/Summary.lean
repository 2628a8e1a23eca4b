import OfflineSchedule.Command
import OfflineSchedule.Schedule.Resource
import OfflineSchedule.Sync.Published
/-!
# The summary

A con at one moment, as text: a title, one line of status per resource, the next events, the
announcements from new to old, and the pages. Sections without a line are left out.
-/

namespace OfflineSchedule

open Time (Instant)
open Sync (Status)

structure Summary where
  con : String
  now : Instant
  /-- Some resource says that there is no such con. -/
  notFound : Bool
  /-- Some resource shows stale data and will be fetched again. -/
  retrying : Bool
  eventsStatus : Status
  infoStatus : Status
  pagesStatus : Status
  /-- `none` if the con has no announcements. -/
  announcementsStatus : Option Status
  info : ConInfo
  events : List Event
  pages : List Page
  announcements : List Announcement
deriving Repr

namespace Summary

/-- So many events are listed. -/
def upcomingLimit : Nat := 5

/-- The events that have not ended, by their start. -/
def upcoming (s : Summary) : List Event :=
  (s.events.filter (·.isUpcoming s.now)).mergeSort fun a b => a.starts.atMost b.starts

/-- The announcements from new to old. -/
def newestFirst (s : Summary) : List Announcement :=
  s.announcements.mergeSort fun a b => b.postedAt.atMost a.postedAt

/-! ## Lines -/

def statusLine (label : String) (status : Status) (detail : String) : String :=
  let line := "  " ++ padRight 15 (label ++ ":") ++ status.name
  if detail.isEmpty then line else line ++ " (" ++ detail ++ ")"

/-- The name of the con, or what it is called by if it has none. -/
def title (s : Summary) : String := if s.info.name.isEmpty then s.con else s.info.name

def eventLine (e : Event) : String :=
  let line := "  " ++ e.starts.weekdayTime ++ "  " ++ e.title
  match e.location with
  | some location => line ++ " @ " ++ location
  | none => line

def announcementLine (a : Announcement) : String :=
  "  - " ++ a.title ++ " (" ++ a.postedAt.monthDayTime ++ ")"

def pageLine (p : Page) : String := "  - " ++ p.title ++ " [" ++ p.slug ++ "]"

/-- The title and the lines of status. -/
def head (s : Summary) : List String :=
  [s.title ++ " (" ++ s.con ++ ")",
    statusLine "events" s.eventsStatus
      (toString s.events.length ++ " total, " ++ toString s.upcoming.length ++ " upcoming"),
    statusLine "info" s.infoStatus "",
    statusLine "pages" s.pagesStatus (toString s.pages.length)] ++
  (match s.announcementsStatus with
    | some status => [statusLine "announcements" status (toString s.announcements.length)]
    | none => []) ++
  (if s.retrying then ["  (server data is stale, retrying)"] else [])

/-- A blank line, a heading and the lines below it; nothing without lines. -/
def titled (heading : String) : List String → List String
  | [] => []
  | lines => "" :: heading :: lines

def upcomingLines (s : Summary) : List String :=
  let events := s.upcoming
  (events.take upcomingLimit).map eventLine ++
    if upcomingLimit < events.length then
      ["  ... and " ++ toString (events.length - upcomingLimit) ++ " more"]
    else []

def lines (s : Summary) : List String :=
  if s.notFound then ["Convention '" ++ s.con ++ "' was not found."]
  else
    s.head ++ titled "Upcoming:" s.upcomingLines ++
      titled "Announcements:" (s.newestFirst.map announcementLine) ++
      titled "Pages:" (s.pages.map pageLine)

/-- Ends every line. -/
def text (s : Summary) : String := String.join (s.lines.map (· ++ "\n"))

end Summary

end OfflineSchedule
