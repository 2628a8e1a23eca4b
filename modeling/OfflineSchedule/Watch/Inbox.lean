/-!
# The watch inbox

Typed lines and changes of resources in one stream. Whoever takes a change takes the changes that
are queued behind it as well, as one; the lines in between wait for their turn.
-/

namespace OfflineSchedule.Watch

/-- Something to react to. The resources are called by names of type `ν`. -/
inductive Notice (ν : Type) where
  | line (text : String)
  /-- The end of the input. -/
  | closed
  | changed (names : List ν)
deriving DecidableEq, Repr

structure Inbox (ν : Type) where
  /-- Read ahead while changes were merged. -/
  pending : List (Notice ν) := []
  queue : List (Notice ν) := []
deriving DecidableEq, Repr

namespace Inbox

variable {ν : Type}

def send (n : Notice ν) (b : Inbox ν) : Inbox ν := { b with queue := b.queue ++ [n] }

/-- Adds those of the names `more` that are new. -/
def addNames [DecidableEq ν] (names : List ν) : List ν → List ν
  | [] => names
  | n :: more => addNames (if n ∈ names then names else names ++ [n]) more

/-- Adds the names of all queued changes. -/
def mergeNames [DecidableEq ν] (names : List ν) : List (Notice ν) → List ν
  | [] => names
  | .changed more :: q => mergeNames (addNames names more) q
  | _ :: q => mergeNames names q

def isChange : Notice ν → Bool
  | .changed _ => true
  | _ => false

/-- The next notice, or nothing if the inbox is empty. -/
def next [DecidableEq ν] (b : Inbox ν) : Option (Notice ν × Inbox ν) :=
  let taken := match b.pending, b.queue with
    | n :: pending, queue => some (n, pending, queue)
    | [], n :: queue => some (n, [], queue)
    | [], [] => none
  match taken with
  | none => none
  | some (.changed names, pending, queue) =>
    some (.changed (mergeNames names queue), ⟨pending ++ queue.filter (!isChange ·), []⟩)
  | some (n, pending, queue) => some (n, ⟨pending, queue⟩)

/-! ## The order of what waits -/

/-- What waits to be taken, in order. -/
def waiting (b : Inbox ν) : List (Notice ν) := b.pending ++ b.queue

theorem waiting_send (n : Notice ν) (b : Inbox ν) : (b.send n).waiting = b.waiting ++ [n] := by
  simp [waiting, send]

theorem next_eq_none_iff [DecidableEq ν] {b : Inbox ν} : b.next = none ↔ b.waiting = [] := by
  obtain ⟨pending, queue⟩ := b
  cases pending with
  | cons n ns => cases n <;> simp [next, waiting]
  | nil =>
    cases queue with
    | nil => simp [next, waiting]
    | cons n ns => cases n <;> simp [next, waiting]

end Inbox

end OfflineSchedule.Watch
