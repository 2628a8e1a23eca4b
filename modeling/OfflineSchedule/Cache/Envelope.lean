import OfflineSchedule.Cache.Store
import OfflineSchedule.Schedule.Resource
/-!
# Envelopes

A cached value is kept in an envelope that names the con it belongs to and the etag it came with.
The header alone can be read without the value. No failure gets out of here: a record that cannot
be read counts as absent, a failed write is reported as `false`, and a failed removal is passed
over.
-/

namespace OfflineSchedule

open Json (Tree Value)

structure Header where
  /-- The con that the value belongs to. -/
  con : String
  etag : Option String
deriving DecidableEq, Repr

structure Envelope (α : Type) extends Header where
  value : α
deriving DecidableEq, Repr

namespace Header

def fields : List String := ["instance", "etag"]

def ofTree (t : Tree) : Option Header := do
  let r ← t.record? fields
  let con ← r.required "instance" Tree.text?
  let etag ← r.withDefault "etag" none (Tree.nullable? Tree.text?)
  return ⟨con, etag⟩

end Header

namespace Envelope

/-- An envelope can be used only for the con that it was written for. -/
def isFor (con : String) (e : Envelope α) : Bool := e.con = con

def fields : List String := ["instance", "etag", "value"]

def ofTree (read : Tree → Option α) (t : Tree) : Option (Envelope α) := do
  let r ← t.record? fields
  let con ← r.required "instance" Tree.text?
  let etag ← r.withDefault "etag" none (Tree.nullable? Tree.text?)
  let value ← r.required "value" read
  return ⟨⟨con, etag⟩, value⟩

def toValue (write : α → Value) (e : Envelope α) : Value :=
  .object ([("instance", .string e.con)] ++ Json.optionalField "etag" e.etag ++
    [("value", write e.value)])

end Envelope

/-! ## The cache -/

namespace Cache

/-- Where the envelope of a key is kept in the store. -/
def recordKey (key : String) : String := "consched:cache:" ++ key

/-- The text of a record; `none` if there is none or it cannot be got. -/
def text? (s : Store) (key : String) : Option String :=
  match s.get (recordKey key) with
  | .ok text => text
  | .error _ => none

/-- The envelope under a key. -/
def get (read : Tree → Option α) (s : Store) (key : String) : Option (Envelope α) :=
  ((text? s key).bind Tree.ofText).bind (Envelope.ofTree read)

/-- The header of the envelope under a key. -/
def header (s : Store) (key : String) : Option Header :=
  ((text? s key).bind Tree.ofText).bind Header.ofTree

/-- Keeps an envelope under a key. The answer is whether it reached the store. -/
def put (write : α → Value) (s : Store) (key : String) (e : Envelope α) : Bool × Store :=
  match s.set (recordKey key) (e.toValue write).render with
  | .ok s => (true, s)
  | .error _ => (false, s)

/-- Removes the envelope under a key. -/
def remove (s : Store) (key : String) : Store :=
  match s.remove (recordKey key) with
  | .ok s => s
  | .error _ => s

/-- The reader of a value of any shape in an envelope, which itself is one level deep. -/
def anyValue (t : Tree) : Option Value := t.value? (Json.deepest - 1)

end Cache

end OfflineSchedule
