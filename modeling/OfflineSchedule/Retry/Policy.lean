import OfflineSchedule.Retry.Duration
/-!
# Retry delays

Stale answers are asked for again after a delay that doubles from attempt to attempt, a bounded
number of times.
-/

namespace OfflineSchedule.Retry

structure Policy where
  /-- Delay before the first retry. -/
  baseDelay : Duration
  /-- Retries before giving up. -/
  maxAttempts : Nat
deriving DecidableEq

namespace Policy

/-- One and a half seconds, five times. -/
def standard : Policy := ⟨.ofMillis 1500, 5⟩

/-- The delay doubles at most this often. -/
def maxDoublings : Nat := 31

/-- Delay before attempt `attempt`, counted from 1. -/
def delayFor (p : Policy) (attempt : Nat) : Duration :=
  p.baseDelay.times (Nat.pow 2 (min (attempt - 1) maxDoublings))

theorem nanos_delayFor (p : Policy) (k : Nat) :
    (p.delayFor k).nanos =
      min (p.baseDelay.nanos * Nat.pow 2 (min (k - 1) maxDoublings)) longestNanos := rfl

end Policy

end OfflineSchedule.Retry
