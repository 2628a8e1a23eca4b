/-!
# Durations

A length of time in whole nanoseconds, up to a longest one. Products beyond it stop at it.
-/

namespace OfflineSchedule

/-- Nanoseconds per second. -/
def nanosPerSecond : Nat := 1000000000

/-- 2⁶⁴ seconds less one nanosecond. -/
def longestNanos : Nat := Nat.pow 2 64 * nanosPerSecond - 1

structure Duration where
  nanos : Nat
  le_longest : nanos ≤ longestNanos

namespace Duration

instance : DecidableEq Duration := fun a b =>
  if h : a.nanos = b.nanos then isTrue (by cases a; cases b; simp_all)
  else isFalse fun e => h (e ▸ rfl)

/-- The length nearest to `nanos` nanoseconds. -/
def clamp (nanos : Nat) : Duration := ⟨min nanos longestNanos, Nat.min_le_right _ _⟩

def longest : Duration := clamp longestNanos

def ofMillis (ms : Nat) : Duration := clamp (ms * 1000000)

/-- `count` times as long. -/
def times (d : Duration) (count : Nat) : Duration := clamp (d.nanos * count)

/-- The whole seconds. -/
def seconds (d : Duration) : Nat := d.nanos / nanosPerSecond

/-- The nanoseconds beyond the whole seconds. -/
def subsecond (d : Duration) : Nat := d.nanos % nanosPerSecond

@[ext] theorem ext {a b : Duration} (h : a.nanos = b.nanos) : a = b := by
  cases a; cases b; simp_all

@[simp] theorem nanos_clamp (n : Nat) : (clamp n).nanos = min n longestNanos := rfl

theorem nanos_times (d : Duration) (k : Nat) :
    (d.times k).nanos = min (d.nanos * k) longestNanos := rfl

end Duration

end OfflineSchedule
