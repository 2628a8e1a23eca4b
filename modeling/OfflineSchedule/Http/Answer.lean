import OfflineSchedule.Json.Record
/-!
# Answers

What a server answers to a conditional request, classified: a payload with its etag, a confirmation
that the payload is unchanged, or a failure with a code. Status 304 is a confirmation, a 2xx status
needs a body that holds an envelope, and every other status is a failure. What never got a status
has code 0.
-/

namespace OfflineSchedule.Http

open Json (Tree Value)

/-- The classified answer to a fetch. -/
inductive Outcome (α : Type) where
  /-- `stale`: the server takes the payload for outdated already. -/
  | success (value : α) (etag : Option String) (stale : Bool)
  /-- The value that is cached is still right. -/
  | notModified
  | error (code : Nat)
deriving DecidableEq, Repr

/-- The code of a failure without a status. -/
def transportCode : Nat := 0

/-- Why a request has no payload. -/
inductive RequestError where
  | notFound
  | status (code : Nat)
  /-- The request or its answer was lost. -/
  | network
  | invalidUrl (url : String)
  /-- The body is no envelope. -/
  | invalidResponse
deriving DecidableEq, Repr

namespace RequestError

def ofStatus (code : Nat) : RequestError := if code = 404 then notFound else status code

def code : RequestError → Nat
  | notFound => 404
  | status code => code
  | network | invalidUrl _ | invalidResponse => transportCode

/-- The text of those errors whose wording is fixed. -/
def message? : RequestError → Option String
  | notFound => some "Resource not found"
  | status code => some ("Unexpected status: " ++ toString code)
  | invalidUrl url => some ("Invalid request URL: " ++ url)
  | network | invalidResponse => none

end RequestError

/-! ## Responses -/

/-- What arrives for a request. -/
structure Response where
  status : Nat
  headers : List (String × List UInt8)
  body : List UInt8
  /-- The connection is lost before the whole body is there. -/
  isCut : Bool := false
deriving DecidableEq, Repr

/-- A status that exists. -/
def isStatus (code : Nat) : Bool := 100 ≤ code && code < 1000

def isSuccess (status : Nat) : Bool := 200 ≤ status && status < 300

def isBlankByte (b : UInt8) : Bool := b = 0x20 || b = 0x09

/-- Drops the blanks at both ends. -/
def trim (bytes : List UInt8) : List UInt8 :=
  ((bytes.dropWhile isBlankByte).reverse.dropWhile isBlankByte).reverse

/-- The text of a header, if all of it is visible ASCII, spaces and tabs. -/
def headerText? (bytes : List UInt8) : Option String :=
  if bytes.all fun b => b = 0x09 || (0x20 ≤ b && b ≤ 0x7E) then
    some (String.ofList (bytes.map fun b => Char.ofNat b.toNat))
  else none

/-- Upper case is lower case in the names of headers. -/
def isNamed (name : String) (header : String × List UInt8) : Bool :=
  header.1.map Char.toLower = name

/-- The etag of a response: the first header of that name counts. -/
def Response.etag? (r : Response) : Option String :=
  (r.headers.find? (isNamed "etag")).bind fun h => headerText? (trim h.2)

/-- The envelope in a body: the payload, which is kept whole, and whether it is stale. -/
structure Body where
  value : Value
  stale : Bool

def Body.fields : List String := ["value", "stale"]

def Body.ofTree (t : Tree) : Option Body := do
  let r ← t.record? Body.fields
  let value ← r.required "value" (·.value? (Json.deepest - 1))
  let stale ← r.withDefault "stale" false Tree.bool?
  return ⟨value, stale⟩

def Body.ofBytes (bytes : List UInt8) : Option Body := (Tree.ofBytes bytes).bind Body.ofTree

/-- Classifies a response. -/
def Response.classify (r : Response) : Except RequestError (Outcome Value) :=
  if r.status = 304 then .ok .notModified
  else if !isSuccess r.status then .error (.ofStatus r.status)
  else if r.isCut then .error .network
  else
    match Body.ofBytes r.body with
    | some b => .ok (.success b.value r.etag? b.stale)
    | none => .error .invalidResponse

/-- A failure as an outcome. -/
def outcome : Except RequestError (Outcome α) → Outcome α
  | .ok o => o
  | .error e => .error e.code

/-- Whether a request may carry the etag: a header holds no control characters but tabs. -/
def canSend (etag : String) : Bool :=
  etag.toList.all fun c => c = '\t' || (c.toNat ≥ 0x20 && c.toNat ≠ 0x7F)

/-- The outcome of a request with the given condition that is answered with `response`, or never
answered. -/
def request (etag : Option String) (response : Option Response) :
    Except RequestError (Outcome Value) :=
  if etag.all canSend then
    match response with
    | some r => r.classify
    | none => .error .network
  else .error .network

end OfflineSchedule.Http
