import Mathlib.Algebra.Group.Nat.Defs
import OfflineSchedule.Retry.Policy
/-!
# How delays grow

A delay is computed from machine words: the factor is a one that is shifted within 32 bits, and the
nanoseconds of the product carry into seconds of 64 bits, which may overflow (`words_times`). This
gives the product of the base delay with a power of two, up to the longest duration, but no more than
31 doublings (`delay_doubles_thirty_one_times`).
-/

namespace OfflineSchedule

/-! ## Durations in machine words -/

namespace Duration

theorem nanos_eq (d : Duration) : d.nanos = d.seconds * nanosPerSecond + d.subsecond :=
  (Nat.div_add_mod' d.nanos nanosPerSecond).symm

theorem subsecond_lt (d : Duration) : d.subsecond < nanosPerSecond := Nat.mod_lt _ (by decide)

theorem longestNanos_succ : longestNanos + 1 = UInt64.size * nanosPerSecond := by decide

theorem seconds_lt (d : Duration) : d.seconds < UInt64.size := by
  have le := d.le_longest
  have eq := d.nanos_eq
  have longest := longestNanos_succ
  simp only [nanosPerSecond, UInt64.size] at *
  omega

/-- The seconds of a product, before they are cut off: those of the product of the nanoseconds
carry into them. -/
def secondsTimes (d : Duration) (count : Nat) : Nat :=
  d.seconds * count + d.subsecond * count / nanosPerSecond

theorem nanos_mul_eq (d : Duration) (count : Nat) :
    d.nanos * count =
      d.secondsTimes count * nanosPerSecond + d.subsecond * count % nanosPerSecond := by
  have carried := Nat.div_add_mod' (d.subsecond * count) nanosPerSecond
  rw [d.nanos_eq, Nat.add_mul, secondsTimes, Nat.add_mul, Nat.mul_right_comm]
  omega

theorem times_of_fits {d : Duration} {count : Nat} (fits : d.secondsTimes count < UInt64.size) :
    (d.times count).seconds = d.secondsTimes count ∧
      (d.times count).subsecond = d.subsecond * count % nanosPerSecond := by
  have below : d.subsecond * count % nanosPerSecond < nanosPerSecond := Nat.mod_lt _ (by decide)
  have product := d.nanos_mul_eq count
  have longest := longestNanos_succ
  have whole : (d.times count).nanos = d.nanos * count := by
    rw [nanos_times]
    refine Nat.min_eq_left ?_
    simp only [nanosPerSecond, UInt64.size] at *
    omega
  rw [seconds, subsecond, whole, product]
  simp only [nanosPerSecond] at *
  omega

theorem times_of_overflows {d : Duration} {count : Nat}
    (overflows : UInt64.size ≤ d.secondsTimes count) : d.times count = longest := by
  have product := d.nanos_mul_eq count
  have longest := longestNanos_succ
  refine ext ?_
  rw [nanos_times]
  refine Nat.min_eq_right ?_
  simp only [nanosPerSecond, UInt64.size] at *
  omega

end Duration

/-! ## Machine words -/

/-- The product, unless it overflows. -/
def checkedMul (a b : UInt64) : Option UInt64 :=
  if a.toNat * b.toNat < UInt64.size then some (a * b) else none

/-- The sum, unless it overflows. -/
def checkedAdd (a b : UInt64) : Option UInt64 :=
  if a.toNat + b.toNat < UInt64.size then some (a + b) else none

namespace Duration

/-- The seconds and the nanoseconds beyond them. -/
def words (d : Duration) : UInt64 × UInt32 := (.ofNat d.seconds, .ofNat d.subsecond)

/-- The product of a duration in words. -/
def timesWords (d : UInt64 × UInt32) (count : UInt32) : UInt64 × UInt32 :=
  let total := d.2.toUInt64 * count.toUInt64
  match (checkedMul d.1 count.toUInt64).bind (checkedAdd · (total / 1000000000)) with
  | some seconds => (seconds, (total % 1000000000).toUInt32)
  | none => longest.words

theorem toNat_words (d : Duration) :
    d.words.1.toNat = d.seconds ∧ d.words.2.toNat = d.subsecond := by
  have below : d.subsecond < UInt32.size := Nat.lt_trans d.subsecond_lt (by decide)
  exact ⟨UInt64.toNat_ofNat_of_lt' d.seconds_lt, UInt32.toNat_ofNat_of_lt' below⟩

theorem toNat_total (d : Duration) (count : UInt32) :
    (d.words.2.toUInt64 * count.toUInt64).toNat = d.subsecond * count.toNat := by
  have fits : d.subsecond * count.toNat < 2 ^ 64 :=
    calc d.subsecond * count.toNat
      _ ≤ nanosPerSecond * 2 ^ 32 :=
        Nat.mul_le_mul (Nat.le_of_lt d.subsecond_lt) (Nat.le_of_lt count.toNat_lt)
      _ < 2 ^ 64 := by decide
  rw [UInt64.toNat_mul, UInt32.toNat_toUInt64, UInt32.toNat_toUInt64, d.toNat_words.2,
    Nat.mod_eq_of_lt fits]

theorem words_times (d : Duration) (count : UInt32) :
    (d.times count.toNat).words = timesWords d.words count := by
  have carry : ((d.words.2.toUInt64 * count.toUInt64) / 1000000000).toNat =
      d.subsecond * count.toNat / nanosPerSecond := by
    rw [UInt64.toNat_div, d.toNat_total]
    rfl
  have rest : ((d.words.2.toUInt64 * count.toUInt64) % 1000000000).toNat =
      d.subsecond * count.toNat % nanosPerSecond := by
    rw [UInt64.toNat_mod, d.toNat_total]
    rfl
  have whole : d.secondsTimes count.toNat =
      d.seconds * count.toNat + d.subsecond * count.toNat / nanosPerSecond := rfl
  unfold timesWords checkedMul
  dsimp only
  rw [UInt32.toNat_toUInt64, d.toNat_words.1]
  by_cases small : d.seconds * count.toNat < UInt64.size
  · have product : (d.words.1 * count.toUInt64).toNat = d.seconds * count.toNat := by
      rw [UInt64.toNat_mul, UInt32.toNat_toUInt64, d.toNat_words.1, Nat.mod_eq_of_lt small]
    rw [if_pos small, Option.bind_some, checkedAdd, product, carry, ← whole]
    by_cases fits : d.secondsTimes count.toNat < UInt64.size
    · rw [if_pos fits]
      obtain ⟨seconds, subsecond⟩ := times_of_fits fits
      refine Prod.ext (UInt64.toNat_inj.1 ?_) (UInt32.toNat_inj.1 ?_)
      · rw [(toNat_words _).1, seconds, UInt64.toNat_add, product, carry, ← whole,
          Nat.mod_eq_of_lt fits]
      · have below : d.subsecond * count.toNat % nanosPerSecond < 2 ^ 32 :=
          Nat.lt_trans (Nat.mod_lt _ (by decide)) (by decide)
        rw [(toNat_words _).2, subsecond, UInt64.toNat_toUInt32, rest, Nat.mod_eq_of_lt below]
    · rw [if_neg fits, times_of_overflows (Nat.le_of_not_lt fits)]
  · have overflows : UInt64.size ≤ d.secondsTimes count.toNat := by omega
    rw [if_neg small, Option.bind_none, times_of_overflows overflows]

end Duration

namespace Retry.Policy

/-- The delay before an attempt in words. The factor is shifted so far that it fits. -/
def delayWords (p : Policy) (attempt : UInt32) : UInt64 × UInt32 :=
  let doublings := min (if attempt = 0 then 0 else attempt - 1) 31
  Duration.timesWords p.baseDelay.words (1 <<< doublings)

theorem toNat_doublings (attempt : UInt32) :
    (min (if attempt = 0 then 0 else attempt - 1) 31 : UInt32).toNat =
      min (attempt.toNat - 1) maxDoublings := by
  have before : (if attempt = 0 then 0 else attempt - 1 : UInt32).toNat = attempt.toNat - 1 := by
    split
    · rename_i zero
      rw [zero]
      rfl
    · rename_i some
      have positive : attempt.toNat ≠ 0 := fun h => some (UInt32.toNat_inj.1 h)
      have le : (1 : UInt32) ≤ attempt := UInt32.le_iff_toNat_le.2 (Nat.pos_of_ne_zero positive)
      exact UInt32.toNat_sub_of_le _ _ le
  rw [← before]
  generalize (if attempt = 0 then 0 else attempt - 1 : UInt32) = n
  have least : min n 31 = if n ≤ 31 then n else 31 := rfl
  rw [least]
  split
  · rename_i le
    exact (Nat.min_eq_left (UInt32.le_iff_toNat_le.1 le)).symm
  · rename_i more
    exact (Nat.min_eq_right (Nat.le_of_not_le fun le => more (UInt32.le_iff_toNat_le.2 le))).symm

theorem toNat_factor {doublings : UInt32} (le : doublings.toNat ≤ maxDoublings) :
    (1 <<< doublings : UInt32).toNat = 2 ^ doublings.toNat := by
  have narrow : doublings.toNat < 32 := Nat.lt_succ_of_le le
  have fits : 2 ^ doublings.toNat < 2 ^ 32 := Nat.pow_lt_pow_right (by decide) narrow
  have one : (1 : UInt32).toNat = 1 := rfl
  rw [UInt32.toNat_shiftLeft, one, Nat.mod_eq_of_lt narrow, Nat.shiftLeft_eq, Nat.one_mul,
    Nat.mod_eq_of_lt fits]

theorem words_delayFor (p : Policy) (attempt : UInt32) :
    (p.delayFor attempt.toNat).words = p.delayWords attempt := by
  have doublings := toNat_doublings attempt
  have factor := toNat_factor (doublings ▸ Nat.min_le_right _ _)
  rw [delayWords, ← Duration.words_times, factor, doublings]
  rfl

theorem nanos_delayFor_succ (p : Policy) (k : Nat) :
    (p.delayFor (k + 1)).nanos = min (p.baseDelay.nanos * 2 ^ min k 31) longestNanos :=
  p.nanos_delayFor (k + 1)

/-- The power is that of the attempt as long as there are doublings left. Afterwards it makes no
difference only where nothing is doubled, or the product is cut off anyway. -/
theorem delay_eq_iff (p : Policy) (k : Nat) :
    (p.delayFor (k + 1)).nanos = min (p.baseDelay.nanos * 2 ^ k) longestNanos ↔
      k ≤ 31 ∨ p.baseDelay.nanos = 0 ∨ longestNanos ≤ p.baseDelay.nanos * 2 ^ 31 := by
  rw [nanos_delayFor_succ]
  by_cases early : k ≤ 31
  · simp [early]
  have more : p.baseDelay.nanos * 2 ^ 32 ≤ p.baseDelay.nanos * 2 ^ k :=
    Nat.mul_le_mul_left _ (Nat.pow_le_pow_right Nat.two_pos (by omega))
  have nothing : p.baseDelay.nanos = 0 → p.baseDelay.nanos * 2 ^ k = 0 := fun zero => by
    rw [zero, Nat.zero_mul]
  have positive : 0 < longestNanos := by decide
  rw [Nat.min_eq_right (by omega : 31 ≤ k)]
  omega

theorem delay_succ_eq_iff (p : Policy) (k : Nat) :
    (p.delayFor (k + 2)).nanos = min (2 * (p.delayFor (k + 1)).nanos) longestNanos ↔
      k ≤ 30 ∨ p.baseDelay.nanos = 0 ∨ longestNanos ≤ p.baseDelay.nanos * 2 ^ 31 := by
  rw [nanos_delayFor_succ, nanos_delayFor_succ]
  have positive : 0 < longestNanos := by decide
  by_cases early : k ≤ 30
  · have doubled : p.baseDelay.nanos * 2 ^ (k + 1) = 2 * (p.baseDelay.nanos * 2 ^ k) := by
      rw [Nat.pow_succ, Nat.mul_comm 2, Nat.mul_assoc]
    rw [Nat.min_eq_left (by omega : k + 1 ≤ 31), Nat.min_eq_left (by omega : k ≤ 31), doubled]
    omega
  · rw [Nat.min_eq_right (by omega : 31 ≤ k + 1), Nat.min_eq_right (by omega : 31 ≤ k)]
    omega

/-- **Delays double 31 times.** Of every policy the delay before each attempt that 32 bits can count
is computed by machine words without an error. Attempts are counted from 1. The delay is the base
delay times a power of two, cut off at the longest duration, and the power is that of the doublings
so far, up to 31 of them. So it is the power of all attempts before, and a delay is twice the one
before, exactly as long as there are doublings left, or if nothing is doubled, or if 31 doublings
reach the longest duration. -/
theorem delay_doubles_thirty_one_times (p : Policy) :
    let base := p.baseDelay.nanos
    (∀ attempt : UInt32, (p.delayFor attempt.toNat).words = p.delayWords attempt) ∧
    ∀ k : Nat,
      (p.delayFor (k + 1)).nanos = min (base * 2 ^ min k 31) longestNanos ∧
      ((p.delayFor (k + 1)).nanos = min (base * 2 ^ k) longestNanos ↔
        k ≤ 31 ∨ base = 0 ∨ longestNanos ≤ base * 2 ^ 31) ∧
      ((p.delayFor (k + 2)).nanos = min (2 * (p.delayFor (k + 1)).nanos) longestNanos ↔
        k ≤ 30 ∨ base = 0 ∨ longestNanos ≤ base * 2 ^ 31) :=
  ⟨p.words_delayFor, fun k => ⟨p.nanos_delayFor_succ k, p.delay_eq_iff k, p.delay_succ_eq_iff k⟩⟩

/-- With a base of a second the 33rd delay is no longer than the 32nd. -/
theorem delay_stops_doubling :
    let p : Policy := ⟨.clamp nanosPerSecond, 4294967295⟩
    (p.delayFor 33).words = (2147483648, 0) ∧ (p.delayFor 32).words = (2147483648, 0) ∧
      (p.delayFor 33).nanos ≠ min (p.baseDelay.nanos * 2 ^ (33 - 1)) longestNanos ∧
      (p.delayFor 33).nanos ≠ min (2 * (p.delayFor 32).nanos) longestNanos := by
  decide

end Retry.Policy

end OfflineSchedule
