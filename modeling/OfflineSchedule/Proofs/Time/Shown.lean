import OfflineSchedule.Proofs.Time.Calendar
import OfflineSchedule.Proofs.Time.Rfc3339
/-!
# What is shown of an instant

Calendar and clock show one date, one hour and one minute at an instant (`Instant.shows_iff`). The
texts of an instant tell these, numbers by two digits, and days of the week and months by their
English names (`Instant.isWeekdayTime_iff`, `Instant.isMonthDayTime_iff`).
-/

namespace OfflineSchedule.Time

/-! ## Names -/

namespace Date

/-- The name of the day of the week with the given day number. Day 0 was a Thursday. -/
def IsWeekday (days : Int) (name : String) : Prop :=
  ∃ (k : Nat) (week : Int), ["Mon", "Tue", "Wed", "Thu", "Fri", "Sat", "Sun"][k]? = some name ∧
    days = 7 * week + k - 3

theorem isWeekday_iff {days : Int} {name : String} :
    IsWeekday days name ↔ name = weekdayName days := by
  have table : ∀ k < 7, ["Mon", "Tue", "Wed", "Thu", "Fri", "Sat", "Sun"][k]? =
      some (weekdayNames.getD ((k + 4) % 7) "") := by decide
  constructor
  · rintro ⟨k, week, listed, rfl⟩
    have lt : k < 7 := (List.getElem?_eq_some_iff.1 listed).1
    have place : ((7 * week + k - 3) % 7).toNat = (k + 4) % 7 := by omega
    rw [weekdayName, place]
    exact Option.some.inj (listed.symm.trans (table k lt))
  · rintro rfl
    refine ⟨((days + 3) % 7).toNat, (days + 3) / 7, ?_, by omega⟩
    have place : (((days + 3) % 7).toNat + 4) % 7 = (days % 7).toNat := by omega
    rw [table _ (by omega), place, weekdayName]

/-- The name of the month with the given number, counted from 1. -/
def IsMonth (month : Nat) (name : String) : Prop :=
  ∃ k, ["Jan", "Feb", "Mar", "Apr", "May", "Jun", "Jul", "Aug", "Sep", "Oct", "Nov", "Dec"][k]? =
    some name ∧ month = k + 1

theorem isMonth_iff {month : Nat} {name : String} (first : 1 ≤ month) (last : month ≤ 12) :
    IsMonth month name ↔ name = monthName month := by
  have table : ∀ k < 12, ["Jan", "Feb", "Mar", "Apr", "May", "Jun", "Jul", "Aug", "Sep", "Oct",
      "Nov", "Dec"][k]? = some (monthNames.getD k "") := by decide
  constructor
  · rintro ⟨k, listed, rfl⟩
    exact Option.some.inj (listed.symm.trans (table k (by omega)))
  · rintro rfl
    exact ⟨month - 1, table _ (by omega), by omega⟩

end Date

namespace Instant

variable {t : Instant} {d : Date} {hour minute : Nat} {text : String}

/-! ## Date and time of day -/

/-- What calendar and clock show at an instant. Within a leap second that is what they show in the
second before it. -/
structure Shows (t : Instant) (d : Date) (hour minute : Nat) : Prop where
  valid : d.isValid = true
  hour_lt : hour < 24
  minute_lt : minute < 60
  since : ∃ second : Nat, second < 60 ∧
    t.seconds = ((d.toDays * 24 + hour) * 60 + minute) * 60 + second

theorem shows_self (t : Instant) : t.Shows t.date t.hour t.minute := by
  have day : t.date.toDays = t.seconds / 86400 := Date.toDays_ofDays t.day
  have clock : t.clock = (t.seconds % 86400).toNat := rfl
  have within : t.clock < 86400 := by omega
  refine ⟨Date.isValid_ofDays t.day, ?_, Nat.mod_lt _ (by decide), t.clock % 60,
    Nat.mod_lt _ (by decide), ?_⟩
  · rw [Instant.hour]
    omega
  · rw [day, Instant.hour, Instant.minute]
    omega

/-- There is one date and one time of day. -/
theorem shows_iff : t.Shows d hour minute ↔ d = t.date ∧ hour = t.hour ∧ minute = t.minute := by
  constructor
  · rintro ⟨valid, hour_lt, minute_lt, second, second_lt, seconds⟩
    have day : t.day = d.toDays := by
      rw [Instant.day, seconds, secondsPerDay]
      omega
    have clock : t.clock = (hour * 60 + minute) * 60 + second := by
      rw [Instant.clock, seconds, secondsPerDay]
      omega
    refine ⟨?_, ?_, ?_⟩
    · rw [date, day, Date.ofDays_toDays valid]
    · rw [Instant.hour, clock]
      omega
    · rw [Instant.minute, clock]
      omega
  · rintro ⟨rfl, rfl, rfl⟩
    exact t.shows_self

/-! ## Texts -/

/-- The two digits of a number. -/
def pair (n : Nat) : String := String.ofList [(n / 10).digitChar, (n % 10).digitChar]

theorem ofList_digits {n : Nat} (h : n < 100) : String.ofList (digits 2 n) = pair n := by
  rw [digits_succ, digits_one (by omega)]
  rfl

theorem hourMinute_eq (t : Instant) : t.hourMinute = pair t.hour ++ ":" ++ pair t.minute := by
  have hour_lt := t.shows_self.hour_lt
  have minute_lt := t.shows_self.minute_lt
  have split : digits 2 t.hour ++ ':' :: digits 2 t.minute =
      digits 2 t.hour ++ [':'] ++ digits 2 t.minute := List.append_cons ..
  rw [hourMinute, split, String.ofList_append, String.ofList_append, ofList_digits (by omega),
    ofList_digits (by omega)]

/-- The text tells the day of the week, the hour and the minute. -/
def IsWeekdayTime (t : Instant) (text : String) : Prop :=
  ∃ d hour minute name, t.Shows d hour minute ∧ Date.IsWeekday d.toDays name ∧
    text = name ++ " " ++ pair hour ++ ":" ++ pair minute

theorem isWeekdayTime_iff : t.IsWeekdayTime text ↔ text = t.weekdayTime := by
  have day : t.date.toDays = t.day := Date.toDays_ofDays t.day
  rw [weekdayTime, hourMinute_eq]
  constructor
  · rintro ⟨d, hour, minute, name, shows, weekday, rfl⟩
    obtain ⟨rfl, rfl, rfl⟩ := shows_iff.1 shows
    rw [Date.isWeekday_iff.1 weekday, day]
    simp only [String.append_assoc]
  · rintro rfl
    refine ⟨_, _, _, _, t.shows_self, Date.isWeekday_iff.2 rfl, ?_⟩
    rw [day]
    simp only [String.append_assoc]

/-- The text tells the month, the day of the month, the hour and the minute. -/
def IsMonthDayTime (t : Instant) (text : String) : Prop :=
  ∃ d hour minute name, t.Shows d hour minute ∧ Date.IsMonth d.month name ∧
    text = name ++ " " ++ pair d.day ++ " " ++ pair hour ++ ":" ++ pair minute

theorem isMonthDayTime_iff : t.IsMonthDayTime text ↔ text = t.monthDayTime := by
  obtain ⟨⟨first, last⟩, -⟩ := Date.isValid_iff.1 t.shows_self.valid
  have day : t.date.day < 100 := Date.day_ofDays_lt t.day
  rw [monthDayTime, hourMinute_eq, ofList_digits day]
  constructor
  · rintro ⟨d, hour, minute, name, shows, month, rfl⟩
    obtain ⟨rfl, rfl, rfl⟩ := shows_iff.1 shows
    rw [(Date.isMonth_iff first last).1 month]
    simp only [String.append_assoc]
  · rintro rfl
    refine ⟨_, _, _, _, t.shows_self, (Date.isMonth_iff first last).2 rfl, ?_⟩
    simp only [String.append_assoc]

end Instant

end OfflineSchedule.Time
