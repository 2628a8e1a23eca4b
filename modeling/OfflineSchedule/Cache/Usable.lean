import OfflineSchedule.Cache.Envelope
/-!
# Usable records

What a resource gets out of the cache for a con: a value is usable if its envelope can be read,
belongs to that con and still decodes. Its etag can be asked about as soon as the header says so.
-/

namespace OfflineSchedule.Cache

/-- The cached value of a con, with its etag. -/
def usable? (r : Resource) (store : Store) (con : String) : Option (r.Live × Option String) :=
  match get r.storedOfTree store r.name with
  | none => none
  | some e =>
    if e.isFor con then
      match r.ofStored e.value with
      | .ok live => some (live, e.etag)
      | .error _ => none
    else none

/-- The etag under which a con is cached. -/
def etag? (r : Resource) (store : Store) (con : String) : Option String :=
  match header store r.name with
  | some h => if h.con = con then h.etag else none
  | none => none

/-- Keeps a value for a con. A failed write is passed over. -/
def keep (r : Resource) (store : Store) (con : String) (value : r.Live) (etag : Option String) :
    Store :=
  (put r.storedToValue store r.name ⟨⟨con, etag⟩, r.toStored value⟩).2

/-- Drops what is cached of a resource. -/
def drop (r : Resource) (store : Store) : Store := remove store r.name

end OfflineSchedule.Cache
