import Mathlib.Data.List.TakeWhile
import OfflineSchedule.Json.Token
/-!
# Numbers as they are written

A text is a number if it is a numeral: a minus or nothing, a whole part without a leading zero, and
a fraction and an exponent if it has them (`isNumber_iff`). The checks for these parts each drop the
longest part that they can, which is the only one, since a digit comes behind none of them.
-/

namespace OfflineSchedule.Json

/-- One digit or more. -/
def IsDigits (cs : List Char) : Prop := cs ≠ [] ∧ ∀ c ∈ cs, c.isDigit = true

/-- A zero, or digits the first of which is none. -/
def IsWhole (cs : List Char) : Prop := cs = ['0'] ∨ IsDigits cs ∧ cs.head? ≠ some '0'

def IsFraction (cs : List Char) : Prop := cs = [] ∨ ∃ ds, IsDigits ds ∧ cs = '.' :: ds

def IsExponent (cs : List Char) : Prop :=
  cs = [] ∨ ∃ e sign ds, (e = 'e' ∨ e = 'E') ∧ (sign = [] ∨ sign = ['+'] ∨ sign = ['-']) ∧
    IsDigits ds ∧ cs = e :: (sign ++ ds)

/-- A number as it is written: a sign if it is negative, a whole part, and perhaps a fraction and an
exponent. -/
def IsNumeral (cs : List Char) : Prop :=
  ∃ sign whole fraction exponent, (sign = [] ∨ sign = ['-']) ∧ IsWhole whole ∧
    IsFraction fraction ∧ IsExponent exponent ∧ cs = sign ++ (whole ++ (fraction ++ exponent))

section

variable {c : Char} {cs ds rest : List Char}

theorem digits?_sound (h : digits? cs = some rest) : ∃ ds, IsDigits ds ∧ cs = ds ++ rest := by
  cases cs with
  | nil => cases h
  | cons c cs =>
    obtain ⟨digit, rfl⟩ : c.isDigit = true ∧ dropDigits cs = rest := by simpa [digits?] using h
    refine ⟨c :: cs.takeWhile (·.isDigit), ⟨nofun, ?_⟩, ?_⟩
    · intro d mem
      rcases List.mem_cons.1 mem with rfl | mem
      · exact digit
      · exact List.mem_takeWhile_imp mem
    · simp [dropDigits]

theorem whole?_sound (h : whole? cs = some rest) : ∃ whole, IsWhole whole ∧ cs = whole ++ rest := by
  unfold whole? at h
  split at h
  · cases h
    exact ⟨['0'], .inl rfl, rfl⟩
  · rename_i notZero
    obtain ⟨ds, digits, rfl⟩ := digits?_sound h
    refine ⟨ds, .inr ⟨digits, fun zero => ?_⟩, rfl⟩
    obtain ⟨tail, rfl⟩ := List.head?_eq_some_iff.1 zero
    exact notZero _ rfl

theorem fraction?_sound (h : fraction? cs = some rest) :
    ∃ fraction, IsFraction fraction ∧ cs = fraction ++ rest := by
  unfold fraction? at h
  split at h
  · obtain ⟨ds, digits, rfl⟩ := digits?_sound h
    exact ⟨'.' :: ds, .inr ⟨ds, digits, rfl⟩, rfl⟩
  · cases h
    exact ⟨[], .inl rfl, rfl⟩

theorem dropSign_sound (cs : List Char) :
    ∃ sign, (sign = [] ∨ sign = ['+'] ∨ sign = ['-']) ∧ cs = sign ++ dropSign cs := by
  unfold dropSign
  split
  · exact ⟨['+'], .inr (.inl rfl), rfl⟩
  · exact ⟨['-'], .inr (.inr rfl), rfl⟩
  · exact ⟨[], .inl rfl, rfl⟩

theorem exponent?_sound (h : exponent? cs = some []) : IsExponent cs := by
  cases cs with
  | nil => exact .inl rfl
  | cons e cs =>
    simp only [exponent?] at h
    split at h
    · rename_i letter
      obtain ⟨sign, signed, split⟩ := dropSign_sound cs
      obtain ⟨ds, digits, rest⟩ := digits?_sound h
      rw [List.append_nil] at rest
      exact .inr ⟨e, sign, ds, by simpa using letter, signed, digits, by rw [split, rest]⟩
    · cases h

/-- Where the digits of a numeral end. -/
def EndsDigits (rest : List Char) : Prop := ∀ c ∈ rest.head?, c.isDigit = false

theorem digits?_append (digits : IsDigits ds) (ends : EndsDigits rest) :
    digits? (ds ++ rest) = some rest := by
  obtain ⟨nonempty, all⟩ := digits
  obtain ⟨d, ds, rfl⟩ := List.exists_cons_of_ne_nil nonempty
  obtain ⟨first, others⟩ := List.forall_mem_cons.1 all
  have drop : dropDigits (ds ++ rest) = rest := by
    rw [dropDigits, List.dropWhile_append_of_pos others]
    cases rest with
    | nil => rfl
    | cons c rest => exact List.dropWhile_cons_of_neg (by simp [ends c rfl])
  simp [digits?, first, drop]

theorem whole?_append (whole : IsWhole cs) (ends : EndsDigits rest) :
    whole? (cs ++ rest) = some rest := by
  rcases whole with rfl | ⟨digits, notZero⟩
  · rfl
  · obtain ⟨d, ds, rfl⟩ := List.exists_cons_of_ne_nil digits.1
    rw [List.cons_append, whole?]
    · exact digits?_append digits ends
    · rintro cs' same
      cases same
      exact notZero rfl

theorem IsExponent.endsDigits (h : IsExponent cs) : EndsDigits cs := by
  rcases h with rfl | ⟨e, sign, ds, rfl | rfl, -, -, rfl⟩
  · nofun
  · rintro c ⟨⟩
    decide
  · rintro c ⟨⟩
    decide

theorem IsFraction.endsDigits (h : IsFraction cs) (ends : EndsDigits rest) :
    EndsDigits (cs ++ rest) := by
  rcases h with rfl | ⟨ds, -, rfl⟩
  · exact ends
  · rintro c ⟨⟩
    decide

theorem fraction?_append {exponent : List Char} (fraction : IsFraction cs)
    (h : IsExponent exponent) : fraction? (cs ++ exponent) = some exponent := by
  rcases fraction with rfl | ⟨ds, digits, rfl⟩
  · rcases h with rfl | ⟨e, sign, ds, rfl | rfl, -, -, rfl⟩ <;> rfl
  · exact digits?_append digits h.endsDigits

theorem exponent?_of_isExponent (h : IsExponent cs) : exponent? cs = some [] := by
  rcases h with rfl | ⟨e, sign, ds, letter, signed, digits, rfl⟩
  · rfl
  · have alone : digits? (ds ++ []) = some [] := digits?_append digits nofun
    have read : digits? (dropSign (sign ++ ds)) = some [] := by
      rcases signed with rfl | rfl | rfl
      · have same : dropSign ds = ds := by
          unfold dropSign
          split
          · exact absurd (digits.2 _ List.mem_cons_self) (by decide)
          · exact absurd (digits.2 _ List.mem_cons_self) (by decide)
          · rfl
        simpa [same] using alone
      · simpa [dropSign] using alone
      · simpa [dropSign] using alone
    simpa [exponent?, letter] using read

theorem IsWhole.head (h : IsWhole cs) : ∃ d tail, cs = d :: tail ∧ d.isDigit = true := by
  rcases h with rfl | ⟨⟨nonempty, all⟩, -⟩
  · exact ⟨'0', [], rfl, rfl⟩
  · obtain ⟨d, ds, rfl⟩ := List.exists_cons_of_ne_nil nonempty
    exact ⟨d, ds, rfl, all d List.mem_cons_self⟩

theorem isNumber_iff : isNumber cs = true ↔ IsNumeral cs := by
  have scans : ∀ cs, ((whole? cs).bind fraction?).bind exponent? = some [] ↔
      ∃ whole fraction exponent, IsWhole whole ∧ IsFraction fraction ∧ IsExponent exponent ∧
        cs = whole ++ (fraction ++ exponent) := by
    intro cs
    simp only [Option.bind_eq_some_iff]
    constructor
    · rintro ⟨exponent, ⟨rest, first, second⟩, third⟩
      obtain ⟨whole, isWhole, rfl⟩ := whole?_sound first
      obtain ⟨fraction, isFraction, rfl⟩ := fraction?_sound second
      exact ⟨whole, fraction, exponent, isWhole, isFraction, exponent?_sound third, rfl⟩
    · rintro ⟨whole, fraction, exponent, isWhole, isFraction, isExponent, rfl⟩
      exact ⟨exponent, ⟨fraction ++ exponent,
        whole?_append isWhole (isFraction.endsDigits isExponent.endsDigits),
        fraction?_append isFraction isExponent⟩, exponent?_of_isExponent isExponent⟩
  constructor
  · intro h
    unfold isNumber at h
    simp only [beq_iff_eq, scans] at h
    obtain ⟨whole, fraction, exponent, isWhole, isFraction, isExponent, split⟩ := h
    split at split
    · exact ⟨['-'], whole, fraction, exponent, .inr rfl, isWhole, isFraction, isExponent,
        congrArg ('-' :: ·) split⟩
    · exact ⟨[], whole, fraction, exponent, .inl rfl, isWhole, isFraction, isExponent, split⟩
  · rintro ⟨sign, whole, fraction, exponent, signed, isWhole, isFraction, isExponent, rfl⟩
    unfold isNumber
    simp only [beq_iff_eq, scans]
    refine ⟨whole, fraction, exponent, isWhole, isFraction, isExponent, ?_⟩
    rcases signed with rfl | rfl
    · obtain ⟨d, tail, rfl, digit⟩ := isWhole.head
      split
      · rename_i minus
        cases minus
        cases digit
      · rfl
    · rfl

/-! ## The characters of a numeral -/

theorem toNat_of_isDigit (h : c.isDigit = true) : 48 ≤ c.toNat ∧ c.toNat ≤ 57 := by
  simpa [Char.isDigit, UInt32.le_iff_toNat_le] using h

theorem isNumberChar_of_isDigit (h : c.isDigit = true) : isNumberChar c = true := by
  simp [isNumberChar, Char.le_def, UInt32.le_iff_toNat_le, toNat_of_isDigit h]

theorem IsNumeral.isNumberChar {cs : List Char} (h : IsNumeral cs) :
    ∀ c ∈ cs, isNumberChar c = true := by
  obtain ⟨sign, whole, fraction, exponent, signed, isWhole, isFraction, isExponent, rfl⟩ := h
  have digits : ∀ {ds}, IsDigits ds → ∀ c ∈ ds, Json.isNumberChar c = true :=
    fun digits c mem => isNumberChar_of_isDigit (digits.2 c mem)
  simp only [List.forall_mem_append]
  refine ⟨?_, ?_, ?_, ?_⟩
  · rcases signed with rfl | rfl
    · exact nofun
    · exact List.forall_mem_singleton.2 rfl
  · rcases isWhole with rfl | ⟨ds, -⟩
    · exact List.forall_mem_singleton.2 rfl
    · exact digits ds
  · rcases isFraction with rfl | ⟨ds, isDigits, rfl⟩
    · exact nofun
    · exact List.forall_mem_cons.2 ⟨rfl, digits isDigits⟩
  · rcases isExponent with rfl | ⟨e, sign, ds, letter, signed, isDigits, rfl⟩
    · exact nofun
    · refine List.forall_mem_cons.2 ⟨?_, List.forall_mem_append.2 ⟨?_, digits isDigits⟩⟩
      · rcases letter with rfl | rfl <;> rfl
      · rcases signed with rfl | rfl | rfl
        · exact nofun
        · exact List.forall_mem_singleton.2 rfl
        · exact List.forall_mem_singleton.2 rfl

/-- A numeral begins with a minus or a digit, and neither begins anything else. -/
theorem IsNumeral.start? {cs : List Char} (h : IsNumeral cs) :
    ∃ c tail, cs = c :: tail ∧ Mode.start? c = some (.number [c], []) := by
  obtain ⟨sign, whole, fraction, exponent, signed, isWhole, -, -, rfl⟩ := h
  rcases signed with rfl | rfl
  · obtain ⟨d, tail, rfl, digit⟩ := isWhole.head
    refine ⟨d, _, rfl, ?_⟩
    have range := toNat_of_isDigit digit
    have notLetter : isLetter d = false := by
      simp [isLetter, Char.le_def, UInt32.le_iff_toNat_le]
      omega
    have notSpace : isSpace d = false := by
      rw [← Bool.not_eq_true]
      intro space
      simp only [isSpace, Bool.or_eq_true, decide_eq_true_eq] at space
      rcases space with ((rfl | rfl) | rfl) | rfl <;> simp at range
    have notQuote : d ≠ '"' := by
      rintro rfl
      simp at range
    simp [Mode.start?, notLetter, notSpace, notQuote, isNumberChar_of_isDigit digit]
  · exact ⟨'-', _, rfl, by decide⟩

end

end OfflineSchedule.Json
