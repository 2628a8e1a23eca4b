import Mathlib.Algebra.Ring.Nat
import OfflineSchedule.Proofs.Time.Calendar
import OfflineSchedule.Time.Rfc3339
/-!
# Timestamps are read back

An instant that is as a timestamp gives it (`Instant.Regular`) is written as a timestamp of the same
instant, provided that its year has four digits (`read_write`). The text of any other year starts
with a sign and is not read at all.
-/

namespace OfflineSchedule.Time

open Instant (digits)

/-- The nanoseconds belong to a second, or to a leap second that follows second 59 of a minute. -/
structure Instant.Regular (t : Instant) : Prop where
  nanos_lt : t.nanos < 2000000000
  leap : 1000000000 ≤ t.nanos → t.seconds % 60 = 59

/-! ## Digits -/

/-- The last digit stands behind those of a tenth. -/
theorem Instant.digits_succ (width n : Nat) :
    digits (width + 2) n = digits (width + 1) (n / 10) ++ [(n % 10).digitChar] := by
  unfold digits
  by_cases h : n < 10
  · rw [Nat.div_eq_of_lt h, Nat.mod_eq_of_lt h, Nat.toDigits_of_lt_base h,
      Nat.toDigits_of_lt_base (by omega)]
    simp [List.replicate_succ']
  · have hd : Nat.toDigits 10 n = Nat.toDigits 10 (n / 10) ++ [(n % 10).digitChar] :=
      Nat.toDigits_of_base_le (by omega) (by omega)
    simp [hd, Nat.succ_sub_succ]

theorem Instant.digits_one {n : Nat} (h : n < 10) : digits 1 n = [n.digitChar] := by
  simp [digits, Nat.toDigits_of_lt_base h]

namespace Rfc3339

theorem digit?_digitChar : ∀ d < 10, digit? d.digitChar = some d := by decide

/-- The last of some digits is read after the others. -/
theorem number?_succ (count acc : Nat) (cs : List Char) :
    number? (count + 1) acc cs = (number? count acc cs).bind fun p => number? 1 p.1 p.2 := by
  induction count generalizing acc cs with
  | zero => rfl
  | succ count ih =>
    cases cs with
    | nil => rfl
    | cons c cs =>
      rw [number?, number?]
      cases digit? c with
      | none => rfl
      | some d => exact ih _ cs

/-- A number with enough digits is read back. -/
theorem number?_digits (width acc n : Nat) (h : n < 10 ^ (width + 1)) (rest : List Char) :
    number? (width + 1) acc (digits (width + 1) n ++ rest) =
      some (acc * 10 ^ (width + 1) + n, rest) := by
  induction width generalizing n rest with
  | zero =>
    rw [Instant.digits_one (by omega)]
    simp [number?, digit?_digitChar n (by omega)]
  | succ width ih =>
    have hn : n / 10 < 10 ^ (width + 1) := by
      rw [Nat.pow_succ] at h
      omega
    rw [number?_succ, Instant.digits_succ, List.append_assoc, ih _ hn]
    simp only [List.singleton_append, Option.bind_some, number?,
      digit?_digitChar (n % 10) (Nat.mod_lt n (by omega)), Option.some.injEq, Prod.mk.injEq,
      and_true]
    rw [Nat.pow_succ 10 (width + 1), ← Nat.mul_assoc, Nat.add_mul]
    omega

/-- A fraction with enough digits, of which the last counts `10 ^ low` nanoseconds. -/
theorem fractionDigits_digits (width low acc n : Nat) (h : n < 10 ^ (width + 1))
    (rest : List Char) :
    fractionDigits (10 ^ (width + low)) acc (digits (width + 1) n ++ rest) =
      fractionDigits (10 ^ low / 10) (acc + n * 10 ^ low) rest := by
  induction width generalizing low n rest with
  | zero =>
    rw [Instant.digits_one (by omega)]
    simp [fractionDigits, digit?_digitChar n (by omega)]
  | succ width ih =>
    have hn : n / 10 < 10 ^ (width + 1) := by
      rw [Nat.pow_succ] at h
      omega
    have place : 10 ^ (low + 1) / 10 = 10 ^ low := by
      rw [Nat.pow_succ, Nat.mul_div_cancel _ (by omega)]
    have value : n / 10 * 10 ^ (low + 1) + n % 10 * 10 ^ low = n * 10 ^ low := by
      rw [Nat.pow_succ, Nat.mul_comm (10 ^ low) 10, ← Nat.mul_assoc, ← Nat.add_mul]
      congr 1
      omega
    rw [show width + 1 + low = width + (low + 1) by omega, Instant.digits_succ, List.append_assoc,
      ih (low + 1) (n / 10) hn, List.singleton_append, place, fractionDigits,
      digit?_digitChar (n % 10) (Nat.mod_lt n (by omega))]
    simp only
    rw [Nat.add_assoc, value]

theorem exists_digits_eq_cons (width : Nat) {n : Nat} (h : n < 10 ^ (width + 1)) :
    ∃ c cs, digits (width + 1) n = c :: cs ∧ (digit? c).isSome := by
  induction width generalizing n with
  | zero =>
    have hn : n < 10 := by omega
    exact ⟨_, _, Instant.digits_one hn, by simp [digit?_digitChar n hn]⟩
  | succ width ih =>
    have hn : n / 10 < 10 ^ (width + 1) := by
      rw [Nat.pow_succ] at h
      omega
    obtain ⟨c, cs, hd, hc⟩ := ih hn
    exact ⟨c, cs ++ [(n % 10).digitChar], by rw [Instant.digits_succ, hd]; rfl, hc⟩

theorem fraction?_digits {width n : Nat} (h : n < 10 ^ (width + 1)) (rest : List Char) :
    fraction? ('.' :: (digits (width + 1) n ++ rest)) =
      some (fractionDigits 100000000 0 (digits (width + 1) n ++ rest)) := by
  obtain ⟨c, cs, hd, hc⟩ := exists_digits_eq_cons width h
  rw [hd, List.cons_append, fraction?, if_pos hc]

/-- A fraction is read back. -/
theorem fraction?_fractionChars {nanos : Nat} (h : nanos < 1000000000) (rest : List Char) :
    fraction? (fractionChars nanos ++ '+' :: rest) = some (nanos, '+' :: rest) := by
  have plus : digit? '+' = none := by decide
  have stop : ∀ place acc, fractionDigits place acc ('+' :: rest) = (acc, '+' :: rest) := by
    intro place acc
    simp [fractionDigits, plus]
  have place : 100000000 = 10 ^ 8 := rfl
  unfold fractionChars
  split
  · rename_i h0
    rw [h0]
    rfl
  split
  · rename_i h3
    have hn : nanos / 1000000 < 10 ^ (2 + 1) := by omega
    rw [List.cons_append, fraction?_digits hn, place, fractionDigits_digits 2 6 0 _ hn, stop]
    congr 2
    omega
  split
  · rename_i h6
    have hn : nanos / 1000 < 10 ^ (5 + 1) := by omega
    rw [List.cons_append, fraction?_digits hn, place, fractionDigits_digits 5 3 0 _ hn, stop]
    congr 2
    omega
  · have hn : nanos < 10 ^ (8 + 1) := by omega
    rw [List.cons_append, fraction?_digits hn, place, fractionDigits_digits 8 0 0 _ hn, stop]
    congr 2
    omega

/-! ## What is read is regular -/

theorem digit?_le {c : Char} {d : Nat} (h : digit? c = some d) : d ≤ 9 := by
  unfold digit? at h
  split at h
  · rename_i hc
    simp only [Bool.and_eq_true, decide_eq_true_eq, Char.le_def, UInt32.le_iff_toNat_le] at hc
    have hd : d = c.toNat - '0'.toNat := (Option.some.inj h).symm
    have upper : c.toNat ≤ '9'.toNat := hc.2
    have values : '0'.toNat = 48 ∧ '9'.toNat = 57 := by decide
    omega
  · cases h

/-- Digits from a place on add up to less than the place before it. -/
theorem fractionDigits_le (place acc : Nat) (cs : List Char) :
    (fractionDigits place acc cs).1 ≤ acc + (10 * place - 1) := by
  induction cs generalizing place acc with
  | nil => simp [fractionDigits]
  | cons c cs ih =>
    rw [fractionDigits]
    cases hd : digit? c with
    | none => simp
    | some d =>
      have rest := ih (place / 10) (acc + d * place)
      have this : d * place ≤ 9 * place := Nat.mul_le_mul_right place (digit?_le hd)
      simp only
      omega

theorem fraction?_lt {cs rest : List Char} {nanos : Nat} (h : fraction? cs = some (nanos, rest)) :
    nanos < 1000000000 := by
  unfold fraction? at h
  split at h
  · rename_i c cs
    split at h
    · have bound := fractionDigits_le 100000000 0 (c :: cs)
      rw [Option.some.inj h] at bound
      simp only at bound
      omega
    · cases h
  · cases h
  · cases h
    omega

/-- An offset is a number of minutes. -/
theorem offsetSize?_minutes {cs rest : List Char} {offset : Int}
    (h : offsetSize? cs = some (offset, rest)) : offset % 60 = 0 := by
  simp only [offsetSize?, Option.bind_eq_bind, Option.bind_eq_some_iff] at h
  obtain ⟨⟨hours, cs⟩, -, cs', -, ⟨minutes, cs''⟩, -, h⟩ := h
  split at h
  · simp only [Option.some.injEq, Prod.mk.injEq] at h
    omega
  · cases h

theorem offset?_minutes {cs rest : List Char} {offset : Int}
    (h : offset? cs = some (offset, rest)) : offset % 60 = 0 := by
  unfold offset? at h
  split at h
  · cases h
  split at h
  · cases h
    rfl
  split at h
  · exact offsetSize?_minutes h
  split at h
  · obtain ⟨⟨size, rest'⟩, hs, he⟩ := Option.map_eq_some_iff.1 h
    have := offsetSize?_minutes hs
    simp only [Prod.mk.injEq] at he
    omega
  · cases h

theorem regular_of_readChars {cs : List Char} {t : Instant} (h : readChars cs = some t) :
    t.Regular := by
  unfold readChars at h
  dsimp only [Option.bind_eq_bind] at h
  simp only [Option.bind_eq_some_iff] at h
  obtain ⟨⟨year, _⟩, -, _, -, ⟨month, _⟩, -, _, -, ⟨day, _⟩, -, _, -, ⟨hour, _⟩, -, _, -,
    ⟨minute, _⟩, -, _, -, ⟨second, _⟩, -, ⟨nanos, _⟩, fraction, ⟨offset, _⟩, zone, h⟩ := h
  have hn := fraction?_lt fraction
  have ho := offset?_minutes zone
  split at h
  · obtain rfl := Option.some.inj h
    refine ⟨?_, fun hl => ?_⟩
    · simp only
      split <;> omega
    · simp only [Instant.secondsPerDay] at hl ⊢
      split at hl
      · omega
      · omega
  · cases h

theorem regular_of_read {s : String} {t : Instant} (h : read s = some t) : t.Regular :=
  regular_of_readChars h

/-! ## Years of what is read -/

theorem number?_lt {count acc n : Nat} {cs rest : List Char}
    (h : number? count acc cs = some (n, rest)) : n < (acc + 1) * 10 ^ count := by
  induction count generalizing acc cs with
  | zero =>
    cases h
    omega
  | succ count ih =>
    cases cs with
    | nil => cases h
    | cons c cs =>
      rw [number?] at h
      cases hd : digit? c with
      | none => simp [hd] at h
      | some d =>
        rw [hd] at h
        have digit := digit?_le hd
        calc n < (acc * 10 + d + 1) * 10 ^ count := ih h
          _ ≤ (acc + 1) * 10 * 10 ^ count := Nat.mul_le_mul_right _ (by omega)
          _ = (acc + 1) * 10 ^ (count + 1) := by rw [Nat.mul_assoc, Nat.pow_succ']

/-- An offset is less than a day. -/
theorem offsetSize?_bounds {cs rest : List Char} {offset : Int}
    (h : offsetSize? cs = some (offset, rest)) : 0 ≤ offset ∧ offset < 86400 := by
  simp only [offsetSize?, Option.bind_eq_bind, Option.bind_eq_some_iff] at h
  obtain ⟨⟨hours, cs⟩, -, cs', -, ⟨minutes, cs''⟩, -, h⟩ := h
  split at h
  · rename_i small
    simp only [Bool.and_eq_true, decide_eq_true_eq] at small
    simp only [Option.some.injEq, Prod.mk.injEq] at h
    omega
  · cases h

theorem offset?_bounds {cs rest : List Char} {offset : Int}
    (h : offset? cs = some (offset, rest)) : -86400 < offset ∧ offset < 86400 := by
  unfold offset? at h
  split at h
  · cases h
  split at h
  · cases h
    decide
  split at h
  · have := offsetSize?_bounds h
    omega
  split at h
  · obtain ⟨⟨size, rest'⟩, hs, he⟩ := Option.map_eq_some_iff.1 h
    have := offsetSize?_bounds hs
    simp only [Prod.mk.injEq] at he
    omega
  · cases h

/-- Texts have the years from 0 to 9999, which an offset moves by one at most. -/
theorem year_of_read {s : String} {t : Instant} (h : read s = some t) :
    -1 ≤ t.date.year ∧ t.date.year ≤ 10000 := by
  unfold read readChars at h
  dsimp only [Option.bind_eq_bind] at h
  simp only [Option.bind_eq_some_iff] at h
  obtain ⟨⟨year, _⟩, number, _, -, ⟨month, _⟩, -, _, -, ⟨day, _⟩, -, _, -, ⟨hour, _⟩, -, _, -,
    ⟨minute, _⟩, -, _, -, ⟨second, _⟩, -, ⟨nanos, _⟩, -, ⟨offset, _⟩, zone, h⟩ := h
  have four : year < 10000 := number?_lt number
  have less := offset?_bounds zone
  split at h
  · rename_i checks
    simp only [Bool.and_eq_true, decide_eq_true_eq] at checks
    obtain ⟨⟨⟨⟨-, valid⟩, hours⟩, minutes⟩, -⟩ := checks
    obtain rfl := Option.some.inj h
    have bounds := Date.toDays_bounds valid
    have first : Date.daysBeforeYear 0 ≤ Date.daysBeforeYear year :=
      Date.daysBeforeYear_mono (by omega)
    have last : Date.daysBeforeYear (year + 1) ≤ Date.daysBeforeYear 10000 :=
      Date.daysBeforeYear_mono (by omega)
    have values : Date.daysBeforeYear (-1) + 1 ≤ Date.daysBeforeYear 0 ∧
        Date.daysBeforeYear 10000 + 1 ≤ Date.daysBeforeYear 10001 := by decide
    dsimp only at bounds
    -- The time of day stays within the day, and the offset moves it by one day at most.
    constructor
    · apply Date.le_year_ofDays
      simp only [Instant.day, Instant.secondsPerDay]
      omega
    · refine Int.lt_add_one_iff.1 (Date.year_ofDays_lt (y := 10001) ?_)
      simp only [Instant.day, Instant.secondsPerDay]
      omega
  · cases h

/-! ## There and back -/

theorem yearChars_read {y : Int} (h : 0 ≤ y ∧ y ≤ 9999) (rest : List Char) :
    number? 4 0 (yearChars y ++ rest) = some (y.toNat, rest) := by
  have hy : y.toNat < 10 ^ (3 + 1) := by omega
  have digits := number?_digits 3 0 y.toNat hy rest
  simp only [yearChars, h.1, h.2, decide_true, Bool.and_self, if_true, digits]
  simp

/-- A year with a sign is not read. -/
theorem yearChars_unread {y : Int} (h : ¬ (0 ≤ y ∧ y ≤ 9999)) (rest : List Char) :
    number? 4 0 (yearChars y ++ rest) = none := by
  have minus : digit? '-' = none := by decide
  have plus : digit? '+' = none := by decide
  have hy : ¬ (decide (0 ≤ y) && decide (y ≤ 9999)) = true := by simpa using h
  rw [yearChars, if_neg hy]
  by_cases hs : y < 0
  · simp [hs, number?, minus]
  · simp [hs, number?, plus]

theorem pair_read {n : Nat} (h : n < 100) (rest : List Char) :
    number? 2 0 (digits 2 n ++ rest) = some (n, rest) := by
  simpa using number?_digits 1 0 n (by omega) rest

theorem char?_self (c : Char) (cs : List Char) : char? c (c :: cs) = some cs := by
  simp [char?]

theorem separator?_T (cs : List Char) : separator? ('T' :: cs) = some cs := by
  simp [separator?]

theorem offset?_zero : offset? "+00:00".toList = some (0, []) := by decide

/-- Hours, minutes and seconds make up the time of day; within a leap second the second before it
counts. -/
theorem clock_eq {t : Instant} (h : t.Regular) :
    t.hour < 24 ∧ t.minute < 60 ∧ t.second ≤ 60 ∧
    (t.hour * 60 + t.minute) * 60 + min t.second 59 = t.clock ∧
    t.nanos % 1000000000 + (if t.second = 60 then 1000000000 else 0) = t.nanos := by
  have lt := h.nanos_lt
  have leap := h.leap
  have clock : t.clock < 86400 := by
    simp only [Instant.clock, Instant.secondsPerDay]
    omega
  have second : 1000000000 ≤ t.nanos → t.clock % 60 = 59 := by
    intro hn
    have := leap hn
    simp only [Instant.clock, Instant.secondsPerDay]
    omega
  have hour : t.hour = t.clock / 3600 := rfl
  have minute : t.minute = t.clock / 60 % 60 := rfl
  have shown : t.second = t.clock % 60 + t.nanos / 1000000000 := rfl
  refine ⟨by omega, by omega, by omega, by omega, ?_⟩
  by_cases hl : t.second = 60
  · rw [if_pos hl]
    omega
  · rw [if_neg hl]
    omega

theorem writeChars_eq (t : Instant) :
    writeChars t = yearChars t.date.year ++ '-' :: (digits 2 t.date.month ++
      '-' :: (digits 2 t.date.day ++ 'T' :: (digits 2 t.hour ++ ':' :: (digits 2 t.minute ++
        ':' :: (digits 2 t.second ++ (fractionChars (t.nanos % 1000000000) ++
          '+' :: "00:00".toList)))))) := by
  have plus : "+00:00".toList = '+' :: "00:00".toList := rfl
  simp only [writeChars, plus, List.append_assoc, List.cons_append]

/-- The text of an instant is read as that instant if its year has four digits, and is not read at
all otherwise. -/
theorem read_write {t : Instant} (h : t.Regular) :
    read (write t) = if 0 ≤ t.date.year ∧ t.date.year ≤ 9999 then some t else none := by
  rw [read, write, String.toList_ofList, writeChars_eq]
  unfold readChars
  dsimp only [Option.bind_eq_bind]
  by_cases hy : 0 ≤ t.date.year ∧ t.date.year ≤ 9999
  · obtain ⟨hour, minute, second, clock, nanos⟩ := clock_eq h
    have zone : offset? ('+' :: "00:00".toList) = some (0, []) := offset?_zero
    have fraction := fraction?_fractionChars (Nat.mod_lt t.nanos (by omega : 1000000000 > 0))
      "00:00".toList
    have year : (t.date.year.toNat : Int) = t.date.year := by omega
    have valid : t.date.isValid = true := Date.isValid_ofDays t.day
    have days : t.date.toDays = t.day := Date.toDays_ofDays t.day
    have seconds : t.day * Instant.secondsPerDay + (t.clock : Int) - 0 = t.seconds := by
      simp only [Instant.day, Instant.clock, Instant.secondsPerDay]
      omega
    have month : t.date.month < 100 := Date.month_ofDays_lt t.day
    have day : t.date.day < 100 := Date.day_ofDays_lt t.day
    rw [if_pos hy, yearChars_read hy, Option.bind_some, char?_self, Option.bind_some,
      pair_read month, Option.bind_some, char?_self, Option.bind_some, pair_read day,
      Option.bind_some, separator?_T, Option.bind_some, pair_read (by omega), Option.bind_some,
      char?_self, Option.bind_some, pair_read (by omega), Option.bind_some, char?_self,
      Option.bind_some, pair_read (by omega), Option.bind_some, fraction, Option.bind_some, zone,
      Option.bind_some]
    dsimp only
    rw [year, valid, clock, nanos, days, seconds]
    simp [hour, minute, second]
  · rw [if_neg hy, yearChars_unread hy]
    rfl

end Rfc3339

end OfflineSchedule.Time
