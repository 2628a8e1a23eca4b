/-!
# The calendar

The Gregorian calendar, extended to all years, as a numbering of days: day 0 is 1 January 1970.
`Date.ofDays` and `Date.toDays` go back and forth.
-/

namespace OfflineSchedule.Time

def isLeapYear (y : Int) : Bool := y % 4 == 0 && (y % 100 != 0 || y % 400 == 0)

/-- The lengths of the twelve months. -/
def monthLengths (leap : Bool) : List Nat :=
  [31, if leap then 29 else 28, 31, 30, 31, 30, 31, 31, 30, 31, 30, 31]

structure Date where
  year : Int
  /-- 1 to 12 -/
  month : Nat
  /-- 1 to the length of the month -/
  day : Nat
deriving DecidableEq, Repr

namespace Date

def monthLength (y : Int) (month : Nat) : Nat := (monthLengths (isLeapYear y)).getD (month - 1) 0

/-- Whether the calendar has the date. -/
def isValid (d : Date) : Bool :=
  1 ≤ d.month && d.month ≤ 12 && 1 ≤ d.day && d.day ≤ monthLength d.year d.month

/-! ## Numbering -/

/-- Days from 1 January of year 0 to 1 January of year `y`. -/
def daysBeforeYear (y : Int) : Int := 365 * y + (y + 3) / 4 - (y + 99) / 100 + (y + 399) / 400

/-- Days from 1 January of year 0 to 1 January 1970. -/
def epochDay : Int := 719528

/-- The days of months of the given lengths. -/
def daysOf (lengths : List Nat) : Nat := lengths.foldr (· + ·) 0

def daysBeforeMonth (y : Int) (month : Nat) : Nat :=
  daysOf ((monthLengths (isLeapYear y)).take (month - 1))

/-- The number of the day, counted from 1 January 1970. -/
def toDays (d : Date) : Int :=
  daysBeforeYear d.year + daysBeforeMonth d.year d.month + (d.day - 1 : Int) - epochDay

/-- The year that holds day `n` counted from 1 January of year 0. The quotient by the mean length
of a year is off by at most one. -/
def yearOfDay (n : Int) : Int :=
  let y := n * 400 / 146097
  if n < daysBeforeYear y then y - 1
  else if daysBeforeYear (y + 1) ≤ n then y + 1
  else y

/-- Month and day of the month of day `n` of a year, whose months from `month` on have the given
lengths. -/
def monthAndDay : List Nat → Nat → Nat → Nat × Nat
  | [], month, n => (month, n + 1)
  | len :: rest, month, n =>
    if n < len then (month, n + 1) else monthAndDay rest (month + 1) (n - len)

/-- The date of the day with the given number. -/
def ofDays (n : Int) : Date :=
  let n := n + epochDay
  let y := yearOfDay n
  let (month, day) := monthAndDay (monthLengths (isLeapYear y)) 1 (n - daysBeforeYear y).toNat
  ⟨y, month, day⟩

/-! ## Names -/

def weekdayNames : List String := ["Thu", "Fri", "Sat", "Sun", "Mon", "Tue", "Wed"]

/-- The English name of the day of the week with the given day number. -/
def weekdayName (days : Int) : String := weekdayNames.getD (days % 7).toNat ""

def monthNames : List String :=
  ["Jan", "Feb", "Mar", "Apr", "May", "Jun", "Jul", "Aug", "Sep", "Oct", "Nov", "Dec"]

def monthName (month : Nat) : String := monthNames.getD (month - 1) ""

end Date

end OfflineSchedule.Time
