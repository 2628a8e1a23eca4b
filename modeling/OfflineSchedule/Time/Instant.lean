import OfflineSchedule.Time.Calendar
/-!
# Instants

A point in universal time: whole seconds since 1 January 1970 and nanoseconds. Within a leap
second the seconds stay those of the second before it and the nanoseconds run on from 10⁹ to
2 · 10⁹, so that the order of instants is the order of the pairs.
-/

namespace OfflineSchedule.Time

structure Instant where
  seconds : Int
  nanos : Nat
deriving DecidableEq, Repr

namespace Instant

def secondsPerDay : Int := 86400

/-- Strictly earlier. -/
def before (a b : Instant) : Bool :=
  a.seconds < b.seconds || (a.seconds == b.seconds && a.nanos < b.nanos)

/-- Not later. -/
def atMost (a b : Instant) : Bool := !b.before a

def day (t : Instant) : Int := t.seconds / secondsPerDay

def date (t : Instant) : Date := Date.ofDays t.day

/-- Seconds since midnight. -/
def clock (t : Instant) : Nat := (t.seconds % secondsPerDay).toNat

def hour (t : Instant) : Nat := t.clock / 3600

def minute (t : Instant) : Nat := t.clock / 60 % 60

/-- The second shown on the clock: 60 within a leap second. -/
def second (t : Instant) : Nat := t.clock % 60 + t.nanos / 1000000000

/-! ## Text -/

/-- The decimal digits of `n`, with zeros in front up to `width` digits. -/
def digits (width n : Nat) : List Char :=
  let ds := Nat.toDigits 10 n
  List.replicate (width - ds.length) '0' ++ ds

/-- Hours and minutes, as on a clock. -/
def hourMinute (t : Instant) : String :=
  String.ofList (digits 2 t.hour ++ ':' :: digits 2 t.minute)

/-- Day of the week and time: `Sat 13:00`. -/
def weekdayTime (t : Instant) : String := Date.weekdayName t.day ++ " " ++ t.hourMinute

/-- Month, day and time: `Jul 04 13:00`. -/
def monthDayTime (t : Instant) : String :=
  Date.monthName t.date.month ++ " " ++ String.ofList (digits 2 t.date.day) ++ " " ++ t.hourMinute

end Instant

end OfflineSchedule.Time
