import OfflineSchedule.Retry.Policy
/-!
# The retry scheduler

Counts stale answers and keeps at most one timer. A timer that ends triggers one reload by whoever
listens; the scheduler itself fetches nothing.
-/

namespace OfflineSchedule.Retry

/-- Nanoseconds since the clock started. -/
abbrev Moment := Nat

structure Scheduler where
  /-- Stale answers since the last reset. -/
  attempt : Nat := 0
  /-- When the timer ends, if one runs. -/
  timer : Option Moment := none
deriving DecidableEq, Repr

namespace Scheduler

/-- Notes a stale answer at `now`: starts the next timer and returns its delay, or, once the
attempts are spent, forgets the count and gives up. -/
def onStale (p : Policy) (now : Moment) (s : Scheduler) : Option Duration × Scheduler :=
  if p.maxAttempts ≤ s.attempt then (none, {})
  else
    let delay := p.delayFor (s.attempt + 1)
    (some delay, ⟨s.attempt + 1, some (now + delay.nanos)⟩)

/-- Stops the timer and forgets the count. -/
def reset (_ : Scheduler) : Scheduler := {}

/-- Stops the timer and keeps the count. -/
def cancelPending (s : Scheduler) : Scheduler := { s with timer := none }

/-- Whether a timer runs. -/
def isPending (s : Scheduler) : Bool := s.timer.isSome

/-- Whether the timer has ended by `now`. -/
def isDue (now : Moment) (s : Scheduler) : Bool := s.timer.any (· ≤ now)

/-- Lets the timer end if it is due, and counts the triggers that it sends. -/
def fire (now : Moment) (s : Scheduler) : Nat × Scheduler :=
  if s.isDue now then (1, { s with timer := none }) else (0, s)

/-! ## What each operation leaves -/

@[simp] theorem isPending_reset (s : Scheduler) : s.reset.isPending = false := rfl
@[simp] theorem attempt_reset (s : Scheduler) : s.reset.attempt = 0 := rfl
@[simp] theorem isPending_cancelPending (s : Scheduler) : s.cancelPending.isPending = false := rfl
@[simp] theorem attempt_cancelPending (s : Scheduler) : s.cancelPending.attempt = s.attempt := rfl

theorem onStale_spent {p : Policy} {now : Moment} {s : Scheduler} (h : p.maxAttempts ≤ s.attempt) :
    s.onStale p now = (none, {}) := if_pos h

theorem onStale_next {p : Policy} {now : Moment} {s : Scheduler} (h : s.attempt < p.maxAttempts) :
    s.onStale p now = (some (p.delayFor (s.attempt + 1)),
      ⟨s.attempt + 1, some (now + (p.delayFor (s.attempt + 1)).nanos)⟩) :=
  if_neg (Nat.not_le.2 h)

end Scheduler

end OfflineSchedule.Retry
