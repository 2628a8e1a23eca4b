import OfflineSchedule.Time.Calendar
/-!
# The numbering of days

`Date.ofDays` gives every day a date that the calendar has (`isValid_ofDays`), and `Date.toDays`
gives it its number back (`toDays_ofDays`). Every date of the calendar is given to a day
(`ofDays_toDays`).
-/

namespace OfflineSchedule.Time.Date

/-! ## Years -/

theorem isLeapYear_iff (y : Int) :
    isLeapYear y = true ↔ y % 4 = 0 ∧ (y % 100 ≠ 0 ∨ y % 400 = 0) := by
  simp [isLeapYear]

/-- The days of a year. -/
def yearLength (y : Int) : Nat := daysOf (monthLengths (isLeapYear y))

theorem daysBeforeYear_succ (y : Int) :
    daysBeforeYear (y + 1) = daysBeforeYear y + yearLength y := by
  have hl := isLeapYear_iff y
  unfold yearLength daysBeforeYear
  cases h : isLeapYear y with
  | true =>
    have sum : daysOf (monthLengths true) = 366 := rfl
    rw [sum]
    simp only [h, true_iff] at hl
    omega
  | false =>
    have sum : daysOf (monthLengths false) = 365 := rfl
    rw [sum]
    simp only [h, Bool.false_eq_true, false_iff] at hl
    omega

/-- The years up to `y` have the mean length of a year each, give or take two days altogether. -/
theorem daysBeforeYear_bounds (y : Int) :
    146097 * y - 400 ≤ 400 * daysBeforeYear y ∧ 400 * daysBeforeYear y ≤ 146097 * y + 800 := by
  unfold daysBeforeYear
  omega

/-- The estimate is off by one year at most. -/
theorem yearOfDay_bounds (n : Int) :
    daysBeforeYear (yearOfDay n) ≤ n ∧ n < daysBeforeYear (yearOfDay n + 1) := by
  have estimate : 146097 * (n * 400 / 146097) ≤ 400 * n ∧
      400 * n < 146097 * (n * 400 / 146097 + 1) := by omega
  unfold yearOfDay
  generalize n * 400 / 146097 = y at estimate
  have before := daysBeforeYear_bounds (y - 1)
  have after := daysBeforeYear_bounds (y + 1 + 1)
  simp only
  split
  · rw [Int.sub_add_cancel]
    exact ⟨by omega, by assumption⟩
  · split
    · exact ⟨by assumption, by omega⟩
    · exact ⟨by omega, by omega⟩

/-! ## Months -/

theorem daysOf_cons (len : Nat) (lens : List Nat) : daysOf (len :: lens) = len + daysOf lens := rfl

/-- A day within months of the given lengths is a day of one of them. -/
theorem monthAndDay_spec (lens : List Nat) (month n : Nat) (h : n < daysOf lens) :
    ∃ k len, (monthAndDay lens month n).1 = month + k ∧ lens[k]? = some len ∧
      1 ≤ (monthAndDay lens month n).2 ∧ (monthAndDay lens month n).2 ≤ len ∧
      daysOf (lens.take k) + (monthAndDay lens month n).2 = n + 1 := by
  induction lens generalizing month n with
  | nil => cases h
  | cons len lens ih =>
    rw [daysOf_cons] at h
    unfold monthAndDay
    split
    · exact ⟨0, len, rfl, rfl, by simp, by simpa, by simp [daysOf]⟩
    · obtain ⟨k, l, hm, hl, hd, hdl, hs⟩ := ih (month + 1) (n - len) (by omega)
      refine ⟨k + 1, l, by omega, hl, hd, hdl, ?_⟩
      rw [List.take_succ_cons, daysOf_cons]
      omega

theorem length_monthLengths (leap : Bool) : (monthLengths leap).length = 12 := rfl

/-! ## There and back -/

theorem isValid_iff {d : Date} : d.isValid = true ↔
    (1 ≤ d.month ∧ d.month ≤ 12) ∧ 1 ≤ d.day ∧ d.day ≤ monthLength d.year d.month := by
  simp [isValid, and_assoc]

/-- What the date of a day is. -/
theorem ofDays_spec (n : Int) :
    let d := ofDays n
    1 ≤ d.month ∧ d.month ≤ 12 ∧ 1 ≤ d.day ∧ d.day ≤ monthLength d.year d.month ∧ d.toDays = n := by
  obtain ⟨lower, upper⟩ := yearOfDay_bounds (n + epochDay)
  rw [daysBeforeYear_succ] at upper
  simp only [ofDays]
  generalize yearOfDay (n + epochDay) = y at lower upper ⊢
  obtain ⟨rest, hr⟩ := Int.le.dest lower
  have hn : (n + epochDay - daysBeforeYear y).toNat = rest := by omega
  rw [hn]
  obtain ⟨k, len, hm, hl, hd, hdl, hs⟩ := monthAndDay_spec (monthLengths (isLeapYear y)) 1 rest (by
    rw [← yearLength]
    omega)
  have hk : k < 12 := by
    have := (List.getElem?_eq_some_iff.1 hl).1
    rwa [length_monthLengths] at this
  have length : monthLength y (monthAndDay (monthLengths (isLeapYear y)) 1 rest).1 = len := by
    rw [hm, monthLength, Nat.add_sub_cancel_left, List.getD_eq_getElem?_getD, hl, Option.getD_some]
  refine ⟨by omega, by omega, hd, by omega, ?_⟩
  simp only [toDays, daysBeforeMonth, hm, Nat.add_sub_cancel_left]
  omega

/-- The calendar has every day. -/
theorem isValid_ofDays (n : Int) : (ofDays n).isValid = true := by
  obtain ⟨first, last, positive, length, -⟩ := ofDays_spec n
  exact isValid_iff.2 ⟨⟨first, last⟩, positive, length⟩

theorem toDays_ofDays (n : Int) : (ofDays n).toDays = n := (ofDays_spec n).2.2.2.2

/-- Months and days have two digits. -/
theorem month_ofDays_lt (n : Int) : (ofDays n).month < 100 := by
  have := (ofDays_spec n).2.1
  omega

theorem monthLength_le (y : Int) (month : Nat) : monthLength y month ≤ 31 := by
  have all : ∀ leap, ∀ k < 12, (monthLengths leap).getD k 0 ≤ 31 := by decide
  by_cases h : month - 1 < 12
  · exact all _ _ h
  · rw [monthLength, List.getD_eq_getElem?_getD,
      List.getElem?_eq_none (by rw [length_monthLengths]; omega)]
    decide

theorem day_ofDays_lt (n : Int) : (ofDays n).day < 100 := by
  have := (ofDays_spec n).2.2.2.1
  have := monthLength_le (ofDays n).year (ofDays n).month
  omega

/-! ## Days of a year -/

theorem daysBeforeYear_mono {y z : Int} (h : y ≤ z) : daysBeforeYear y ≤ daysBeforeYear z := by
  unfold daysBeforeYear
  omega

/-- A day from the start of a year on has that year or a later one. -/
theorem le_year_ofDays {y n : Int} (h : daysBeforeYear y ≤ n + epochDay) : y ≤ (ofDays n).year := by
  refine Int.not_lt.1 fun earlier => ?_
  have upper := (yearOfDay_bounds (n + epochDay)).2
  have := daysBeforeYear_mono (show yearOfDay (n + epochDay) + 1 ≤ y from earlier)
  omega

/-- A day before the start of a year has an earlier one. -/
theorem year_ofDays_lt {y n : Int} (h : n + epochDay < daysBeforeYear y) : (ofDays n).year < y := by
  refine Int.not_le.1 fun later => ?_
  have lower := (yearOfDay_bounds (n + epochDay)).1
  have := daysBeforeYear_mono (show y ≤ yearOfDay (n + epochDay) from later)
  omega

/-- The days of a month are days of the year. -/
theorem daysBeforeMonth_add_monthLength_le (y : Int) {month : Nat} (h : month ≤ 12) :
    daysBeforeMonth y month + monthLength y month ≤ yearLength y := by
  have all : ∀ leap, ∀ k < 12,
      daysOf ((monthLengths leap).take k) + (monthLengths leap).getD k 0 ≤
        daysOf (monthLengths leap) := by decide
  exact all _ _ (by omega)

/-- A date of the calendar is a day of its year. -/
theorem toDays_bounds {d : Date} (h : d.isValid = true) :
    daysBeforeYear d.year ≤ d.toDays + epochDay ∧
      d.toDays + epochDay < daysBeforeYear (d.year + 1) := by
  obtain ⟨⟨-, month⟩, first, last⟩ := isValid_iff.1 h
  have within := daysBeforeMonth_add_monthLength_le d.year month
  rw [daysBeforeYear_succ]
  unfold toDays
  omega

/-- A month is over before a later one of its year begins. -/
theorem daysBeforeMonth_add_monthLength_le_of_lt (y : Int) {month later : Nat} (first : 1 ≤ month)
    (lt : month < later) (last : later ≤ 12) :
    daysBeforeMonth y month + monthLength y month ≤ daysBeforeMonth y later := by
  have all : ∀ leap, ∀ k < 12, ∀ j < k,
      daysOf ((monthLengths leap).take j) + (monthLengths leap).getD j 0 ≤
        daysOf ((monthLengths leap).take k) := by decide
  exact all _ _ (by omega) _ (by omega)

/-- A day of a year has one month and one day of the month. -/
theorem eq_of_daysBeforeMonth {d e : Date} (valid : d.isValid = true) (valid' : e.isValid = true)
    (year : d.year = e.year)
    (same : daysBeforeMonth d.year d.month + d.day = daysBeforeMonth e.year e.month + e.day) :
    d = e := by
  obtain ⟨⟨first, last⟩, positive, length⟩ := isValid_iff.1 valid
  obtain ⟨⟨first', last'⟩, positive', length'⟩ := isValid_iff.1 valid'
  rw [year] at same length
  have month : d.month = e.month := by
    rcases Nat.lt_trichotomy d.month e.month with lt | eq | lt
    · have ended := daysBeforeMonth_add_monthLength_le_of_lt e.year first lt last'
      omega
    · exact eq
    · have ended := daysBeforeMonth_add_monthLength_le_of_lt e.year first' lt last
      omega
  rw [month] at same
  have day : d.day = e.day := by omega
  cases d
  cases e
  simp_all

/-- Every date of the calendar is that of its day. -/
theorem ofDays_toDays {d : Date} (valid : d.isValid = true) : ofDays d.toDays = d := by
  obtain ⟨lower, upper⟩ := toDays_bounds valid
  have year : (ofDays d.toDays).year = d.year := by
    have notEarlier := le_year_ofDays lower
    have notLater := year_ofDays_lt upper
    omega
  have same := toDays_ofDays d.toDays
  have positive := (isValid_iff.1 valid).2.1
  have positive' := (isValid_iff.1 (isValid_ofDays d.toDays)).2.1
  refine eq_of_daysBeforeMonth (isValid_ofDays _) valid year ?_
  generalize ofDays d.toDays = e at year same positive' ⊢
  rw [toDays, toDays, year] at same
  rw [year]
  omega

end OfflineSchedule.Time.Date
