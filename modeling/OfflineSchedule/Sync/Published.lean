/-!
# Published states

What observers see of a resource: nothing yet, the last good value, or a failure without a value to
fall back to.
-/

namespace OfflineSchedule.Sync

inductive Status where
  | pending
  | success
  | error
deriving DecidableEq, Repr

def Status.name : Status → String
  | pending => "pending"
  | success => "success"
  | error => "error"

inductive Published (α : Type) where
  | pending
  | success (value : α) (etag : Option String)
  | error (code : Nat)
deriving DecidableEq, Repr

namespace Published

def status : Published α → Status
  | pending => .pending
  | success _ _ => .success
  | error _ => .error

def value? : Published α → Option α
  | success value _ => some value
  | _ => none

def isSuccess : Published α → Bool
  | success _ _ => true
  | _ => false

/-- Only code 404 says that the con does not exist. -/
def isNotFound : Published α → Bool
  | error code => code = 404
  | _ => false

def valueOr (default : α) (p : Published α) : α := p.value?.getD default

theorem isSuccess_iff_status {p : Published α} : p.isSuccess = true ↔ p.status = .success := by
  cases p <;> simp [isSuccess, status]

end Published

/-- How a reload ended. -/
inductive Reload where
  /-- A payload was applied. -/
  | updated (stale : Bool)
  /-- The server confirmed the cached value. -/
  | notModified
  | failed (code : Nat)
  /-- A newer fetch was issued meanwhile, and nothing was applied. -/
  | superseded
  /-- No con has been selected yet. -/
  | noInstance
deriving DecidableEq, Repr

def Reload.describe : Reload → String
  | updated false => "updated"
  | updated true => "updated (stale, retrying)"
  | notModified => "not modified"
  | failed code =>
    if code = 0 then "failed (unreachable)" else "failed (" ++ toString code ++ ")"
  | superseded => "superseded"
  | noInstance => "no instance"

end OfflineSchedule.Sync
