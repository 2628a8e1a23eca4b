import OfflineSchedule.Time.Instant
/-!
# The data of a con

Events, general information, pages and announcements, as they are shown.
-/

namespace OfflineSchedule

open Time (Instant)

structure Event where
  id : String
  title : String
  description : Option String
  location : Option String
  starts : Instant
  ends : Instant
  tags : List String
  hosts : List String
deriving DecidableEq, Repr

/-- Whether the event has not ended by `now`. -/
def Event.isUpcoming (now : Instant) (e : Event) : Bool := now.before e.ends

structure Link where
  title : String
  url : String
deriving DecidableEq, Repr

structure ConInfo where
  name : String := ""
  description : Option String := none
  timezone : Option String := none
  starts : Option Instant := none
  ends : Option Instant := none
  links : List Link := []
deriving DecidableEq, Repr

structure Page where
  id : String
  title : String
  slug : String
  /-- Markdown. -/
  body : String
deriving DecidableEq, Repr

structure Announcement where
  id : String
  title : String
  body : String
  postedAt : Instant
deriving DecidableEq, Repr

end OfflineSchedule
