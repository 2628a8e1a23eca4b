import OfflineSchedule.Retry.Scheduler
/-!
# A scheduler in time

One scheduler and its clock. After each step everything that is due has happened, so that a timer
without delay ends at once.
-/

namespace OfflineSchedule.Retry

inductive Step where
  | stale
  | reset
  | cancel
  /-- Drops the scheduler and starts with a new one. -/
  | replace
  /-- Lets time pass, in nanoseconds. -/
  | advance (nanos : Nat)
deriving DecidableEq, Repr

structure Timeline where
  policy : Policy
  now : Moment := 0
  scheduler : Scheduler := {}

/-- What a step shows. -/
structure Report where
  /-- Triggers sent. -/
  fired : Nat
  pending : Bool
  /-- The answer to a stale result. -/
  delay : Option (Option Duration) := none

namespace Timeline

/-- The effect of the step itself. -/
def apply (t : Timeline) : Step → Option (Option Duration) × Timeline
  | .stale =>
    let (delay, s) := t.scheduler.onStale t.policy t.now
    (some delay, { t with scheduler := s })
  | .reset => (none, { t with scheduler := t.scheduler.reset })
  | .cancel => (none, { t with scheduler := t.scheduler.cancelPending })
  | .replace => (none, { t with scheduler := {} })
  | .advance nanos => (none, { t with now := t.now + nanos })

def step (t : Timeline) (s : Step) : Report × Timeline :=
  let (delay, t) := t.apply s
  let (fired, scheduler) := t.scheduler.fire t.now
  (⟨fired, scheduler.isPending, delay⟩, { t with scheduler })

def run (t : Timeline) : List Step → List Report
  | [] => []
  | s :: steps =>
    let (report, t) := t.step s
    report :: t.run steps

end Timeline

end OfflineSchedule.Retry
