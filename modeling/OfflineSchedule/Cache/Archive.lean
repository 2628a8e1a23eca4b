import OfflineSchedule.Cache.Store
import OfflineSchedule.Json.Writer
/-!
# Archives

Records as one text, so that a file can keep them: a JSON object from keys to texts. An empty text
holds no records.
-/

namespace OfflineSchedule.Records

open Json (Value)

def toArchive (rs : Records) : String :=
  (Value.object (rs.map fun (key, text) => (key, .string text))).render

/-- The records of an object whose members are all texts. -/
def ofMembers? : List (String × Value) → Option Records
  | [] => some []
  | (key, .string text) :: ms => (ofMembers? ms).map ((key, text) :: ·)
  | _ => none

def ofArchive? (s : String) : Option Records :=
  if s.isEmpty then some []
  else
    match Value.ofText s with
    | some (.object ms) => ofMembers? ms
    | _ => none

end OfflineSchedule.Records
