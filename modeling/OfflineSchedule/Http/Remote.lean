import OfflineSchedule.Http.Answer
import OfflineSchedule.Http.Endpoint
/-!
# A server

What the server at a base URL answers to the requests for each path, and the requests that it got.
It may not be there at all, and it may keep requests until somebody says what to answer.
-/

namespace OfflineSchedule.Http

open Json (Value)

/-- A request as the server sees it. -/
structure Request where
  /-- The path and the query. -/
  path : String
  /-- The payload is wanted only if it has another etag. -/
  ifNoneMatch : Option String
deriving DecidableEq, Repr

/-- What is answered to requests, by their paths. -/
structure Web where
  /-- Whether requests arrive. -/
  isReachable : Bool := true
  /-- Whether requests wait for somebody to say what to answer. -/
  holds : Bool := false
  /-- What is answered next for a path; `none` closes the connection, as does having no answer. -/
  queued : List (String × Option Response) := []
  /-- The requests that arrived, backwards. -/
  requests : List Request := []

/-- The requests that arrived, in order, and the web without them. -/
def Web.takeRequests (w : Web) : List Request × Web :=
  (w.requests.reverse, { w with requests := [] })

/-- A server at a base URL. -/
structure Remote extends Web where
  base : Url

namespace Remote

/-- The path that is requested for an endpoint of a con. -/
def path (con endpoint : String) (h : Remote) : String :=
  String.ofList (endpointUrl h.base con endpoint).requestTarget

/-- The first answer that is queued for a path, and the others. -/
def takeQueued (path : String) :
    List (String × Option Response) → Option Response × List (String × Option Response)
  | [] => (none, [])
  | (p, response) :: rest =>
    if p = path then (response, rest)
    else
      let (found, rest) := takeQueued path rest
      (found, (p, response) :: rest)

/-- Sends a request. There is no outcome yet if it is kept. -/
def ask (con endpoint : String) (etag : Option String) (h : Remote) :
    Option (Outcome Value) × Remote :=
  if !h.isReachable || !etag.all canSend then (some (outcome (request etag none)), h)
  else
    let path := h.path con endpoint
    let h := { h with requests := ⟨path, etag⟩ :: h.requests }
    if h.holds then (none, h)
    else
      let (response, queued) := takeQueued path h.queued
      (some (outcome (request etag response)), { h with queued })

/-- The requests that arrived, in order, and the server without them. -/
def takeRequests (h : Remote) : List Request × Remote :=
  (h.toWeb.takeRequests.1, { h with requests := [] })

end Remote

end OfflineSchedule.Http
