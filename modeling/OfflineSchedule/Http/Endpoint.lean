import OfflineSchedule.Url.Reader
/-!
# Endpoints

Where a resource of a con is fetched: below the base URL, in a segment for the con and one for the
resource.
-/

namespace OfflineSchedule.Http

/-- Why a text is no base URL. -/
inductive BaseUrlError where
  | invalid (text : String)
  /-- The URL has no path that could be extended. -/
  | noSegments (text : String)
deriving DecidableEq, Repr

/-- The text of those errors whose wording is fixed. -/
def BaseUrlError.message? : BaseUrlError → Option String
  | invalid _ => none
  | noSegments text => some ("API base URL cannot have paths: " ++ text)

def baseUrl (text : String) : Except BaseUrlError Url :=
  match Url.read text with
  | .ok u => .ok u
  | .error .invalid => .error (.invalid text)
  | .error .opaquePath => .error (.noSegments text)

/-- The URL of `endpoint` for a con. -/
def endpointUrl (base : Url) (con endpoint : String) : Url :=
  base.push [con.toList, endpoint.toList]

end OfflineSchedule.Http
