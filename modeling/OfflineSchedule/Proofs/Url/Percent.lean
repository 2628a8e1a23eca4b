import OfflineSchedule.Url.Basic
/-!
# Escapes stand for bytes

An escaped text is decoded to the bytes of the text, provided that percent signs are escaped
(`decode_encode`). The bytes determine the text, so that an escaped text is a dot segment only if
the text is (`isDoubleDot_encode`), although dot segments may be spelled with escapes.
-/

namespace OfflineSchedule.Url

/-- The bytes of a text. -/
def bytes (cs : List Char) : List UInt8 := cs.flatMap String.utf8EncodeChar

theorem bytes_injective : Function.Injective bytes := by
  intro cs ds same
  have encoded : cs.utf8Encode = ds.utf8Encode := congrArg List.toByteArray same
  rw [← String.toByteArray_ofList, ← String.toByteArray_ofList] at encoded
  exact String.ofList_inj.1 (String.toByteArray_inj.1 encoded)

/-! ## Decoding -/

theorem hexValue?_upperHexDigit : ∀ n < 16, hexValue? (upperHexDigit n) = some n := by decide

theorem decode_cons {c : Char} (plain : c ≠ '%') (cs : List Char) :
    decode (c :: cs) = String.utf8EncodeChar c ++ decode cs := by
  simp only [decode, decodeAfter, if_neg plain]

theorem decode_escape {x y : Char} {a b : Nat} (high : hexValue? x = some a)
    (low : hexValue? y = some b) (cs : List Char) :
    decode ('%' :: x :: y :: cs) = UInt8.ofNat (a * 16 + b) :: decode cs := by
  simp [decode, decodeAfter, escapedByte?, high, low]

theorem decode_encodeByte (b : UInt8) (cs : List Char) :
    decode (encodeByte b ++ cs) = b :: decode cs := by
  have bound : b.toNat < 256 := b.toNat_lt
  have value : b.toNat / 16 * 16 + b.toNat % 16 = b.toNat := by omega
  have decoded := decode_escape (hexValue?_upperHexDigit (b.toNat / 16) (by omega))
    (hexValue?_upperHexDigit (b.toNat % 16) (by omega)) cs
  rwa [value, UInt8.ofNat_toNat] at decoded

theorem decode_encodeBytes (bs : List UInt8) (cs : List Char) :
    decode (bs.flatMap encodeByte ++ cs) = bs ++ decode cs := by
  induction bs with
  | nil => rfl
  | cons b bs ih => rw [List.flatMap_cons, List.append_assoc, decode_encodeByte, ih, List.cons_append]

variable {set : Char → Bool}

/-- What is escaped is decoded to the bytes of the text. -/
theorem decode_encode (percent : set '%' = true) (cs : List Char) :
    decode (encode set cs) = bytes cs := by
  induction cs with
  | nil => rfl
  | cons c cs ih =>
    rw [encode, List.flatMap_cons, bytes, List.flatMap_cons, encodeChar]
    change decode (_ ++ encode set cs) = _ ++ bytes cs
    split
    · rw [decode_encodeBytes, ih]
    · rename_i plain
      have notPercent : c ≠ '%' := by
        rintro rfl
        simp [percent] at plain
      rw [List.singleton_append, decode_cons notPercent, ih]

theorem encode_inj (percent : set '%' = true) {cs ds : List Char} :
    encode set cs = encode set ds ↔ cs = ds := by
  refine ⟨fun same => bytes_injective ?_, congrArg _⟩
  rw [← decode_encode percent cs, same, decode_encode percent ds]

theorem encode_ne_nil (percent : set '%' = true) {cs : List Char} (h : cs ≠ []) :
    encode set cs ≠ [] :=
  fun empty => h ((encode_inj percent).1 empty)

/-! ## The characters of an escaped text -/

/-- The characters of escapes. -/
def isEscapeChar (c : Char) : Bool := c = '%' || c.isDigit || ('A' ≤ c && c ≤ 'F')

theorem isEscapeChar_upperHexDigit : ∀ n < 16, isEscapeChar (upperHexDigit n) = true := by decide

theorem isEscapeChar_of_mem_encodeByte {b : UInt8} {d : Char} (mem : d ∈ encodeByte b) :
    isEscapeChar d = true := by
  have bound : b.toNat < 256 := b.toNat_lt
  simp only [encodeByte, List.mem_cons, List.not_mem_nil, or_false] at mem
  rcases mem with rfl | rfl | rfl
  · rfl
  · exact isEscapeChar_upperHexDigit _ (by omega)
  · exact isEscapeChar_upperHexDigit _ (by omega)

/-- A character of an escaped text is one of the text that is not escaped, or part of an escape. -/
theorem mem_encode {cs : List Char} {d : Char} (mem : d ∈ encode set cs) :
    d ∈ cs ∧ set d = false ∨ isEscapeChar d = true := by
  obtain ⟨c, inText, mem⟩ := List.mem_flatMap.1 mem
  unfold encodeChar at mem
  split at mem
  · obtain ⟨b, -, mem⟩ := List.mem_flatMap.1 mem
    exact .inr (isEscapeChar_of_mem_encodeByte mem)
  · rename_i plain
    obtain rfl := List.mem_singleton.1 mem
    exact .inl ⟨inText, by simp_all⟩

theorem not_mem_encode {cs : List Char} {d : Char} (h : set d = true ∨ d ∉ cs)
    (notEscape : isEscapeChar d = false) : d ∉ encode set cs := by
  intro mem
  rcases mem_encode mem with ⟨inText, kept⟩ | escape
  · rcases h with escaped | absent
    · rw [escaped] at kept
      cases kept
    · exact absent inText
  · rw [notEscape] at escape
    cases escape

/-! ## Dot segments -/

/-- A character stays as it is in small letters, or is a capital. -/
theorem toLower_cases (c : Char) :
    c.toLower = c ∨ 65 ≤ c.toNat ∧ c.toLower.toNat = c.toNat + 32 := by
  unfold Char.toLower
  split
  · rename_i capital
    have range : 65 ≤ c.toNat ∧ c.toNat ≤ 90 := by
      simpa [UInt32.le_iff_toNat_le] using capital
    refine .inr ⟨range.1, ?_⟩
    have sum : (c.val + ('a'.val - 'A'.val)).toNat = c.toNat + 32 := by
      rw [UInt32.toNat_add]
      have letters : ('a'.val - 'A'.val).toNat = 32 := by decide
      have value : c.val.toNat = c.toNat := rfl
      omega
    exact sum
  · exact .inl rfl

theorem eq_of_toLower {c d : Char} (h : c.toLower = d) (sign : d.toNat < 97) : c = d := by
  rcases toLower_cases c with same | ⟨capital, shifted⟩
  · exact same.symm.trans h
  · rw [h] at shifted
    omega

theorem hexValue?_of_toLower {c : Char} (h : c.toLower = 'e') : hexValue? c = some 14 := by
  rcases toLower_cases c with same | ⟨-, shifted⟩
  · rw [← same, h]
    rfl
  · rw [h] at shifted
    have capital : c = 'E' := Char.toNat_inj.1 (by simpa using shifted.symm)
    rw [capital]
    rfl

theorem decode_dot {c : Char} (h : c.toLower = '.') (cs : List Char) :
    decode (c :: cs) = 46 :: decode cs := by
  rw [eq_of_toLower h (by decide), decode_cons (by decide)]
  rfl

/-- An escaped dot, with a small or capital digit. -/
theorem decode_escapedDot {p x y : Char} (hp : p.toLower = '%') (hx : x.toLower = '2')
    (hy : y.toLower = 'e') (cs : List Char) : decode (p :: x :: y :: cs) = 46 :: decode cs := by
  have two : hexValue? '2' = some 2 := by decide
  rw [eq_of_toLower hp (by decide), eq_of_toLower hx (by decide),
    decode_escape two (hexValue?_of_toLower hy)]
  rfl

theorem decode_of_isSingleDot {s : List Char} (h : isSingleDot s = true) :
    decode s = bytes ['.'] := by
  simp only [isSingleDot, List.mem_cons, List.not_mem_nil, or_false, decide_eq_true_eq,
    List.map_eq_cons_iff, List.map_eq_nil_iff] at h
  rcases h with ⟨c, _, rfl, hc, rfl⟩ | ⟨p, _, rfl, hp, x, _, rfl, hx, y, _, rfl, hy, rfl⟩
  · exact decode_dot hc []
  · exact decode_escapedDot hp hx hy []

theorem decode_of_isDoubleDot {s : List Char} (h : isDoubleDot s = true) :
    decode s = bytes ['.', '.'] := by
  simp only [isDoubleDot, List.mem_cons, List.not_mem_nil, or_false, decide_eq_true_eq,
    List.map_eq_cons_iff, List.map_eq_nil_iff] at h
  rcases h with ⟨c, _, rfl, hc, d, _, rfl, hd, rfl⟩ |
    ⟨c, _, rfl, hc, p, _, rfl, hp, x, _, rfl, hx, y, _, rfl, hy, rfl⟩ |
    ⟨p, _, rfl, hp, x, _, rfl, hx, y, _, rfl, hy, c, _, rfl, hc, rfl⟩ |
    ⟨p, _, rfl, hp, x, _, rfl, hx, y, _, rfl, hy, p', _, rfl, hp', x', _, rfl, hx', y', _, rfl,
      hy', rfl⟩
  · rw [decode_dot hc, decode_dot hd]
    rfl
  · rw [decode_dot hc, decode_escapedDot hp hx hy]
    rfl
  · rw [decode_escapedDot hp hx hy, decode_dot hc]
    rfl
  · rw [decode_escapedDot hp hx hy, decode_escapedDot hp' hx' hy']
    rfl

theorem isSingleDot_encode (percent : set '%' = true) (dot : set '.' = false) {cs : List Char} :
    isSingleDot (encode set cs) = true ↔ cs = ['.'] := by
  constructor
  · intro h
    have same := (decode_encode percent cs).symm.trans (decode_of_isSingleDot h)
    exact bytes_injective same
  · rintro rfl
    simp [encode, encodeChar, isControl, dot, isSingleDot]

theorem isDoubleDot_encode (percent : set '%' = true) (dot : set '.' = false) {cs : List Char} :
    isDoubleDot (encode set cs) = true ↔ cs = ['.', '.'] := by
  constructor
  · intro h
    have same := (decode_encode percent cs).symm.trans (decode_of_isDoubleDot h)
    exact bytes_injective same
  · rintro rfl
    simp [encode, encodeChar, isControl, dot, isDoubleDot]

/-! ### Dot segments as what they are decoded to -/

theorem eq_dot_of_head {c : Char} {bs bs' : List UInt8}
    (h : String.utf8EncodeChar c ++ bs = 46 :: bs') : c = '.' ∧ bs = bs' := by
  have toNat : ∀ {n : Nat}, UInt8.ofNat n = 46 → n % 256 = 46 := fun {n} h => by
    simpa using congrArg UInt8.toNat h
  unfold String.utf8EncodeChar at h
  dsimp only at h
  split at h
  · rename_i ascii
    obtain ⟨byte, rest⟩ := List.cons.inj h
    have value := toNat byte
    have code : c.toNat = 46 := by
      change c.toNat ≤ 127 at ascii
      change c.toNat % 256 = 46 at value
      omega
    exact ⟨Char.toNat_inj.1 code, rest⟩
  · -- The first byte of a longer sequence is above those of ASCII.
    exfalso
    split at h
    · have value := toNat (List.cons.inj h).1
      omega
    · split at h
      · have value := toNat (List.cons.inj h).1
        omega
      · have value := toNat (List.cons.inj h).1
        omega

theorem decode_cases (c : Char) (cs : List Char) :
    (∃ x y rest b, c = '%' ∧ cs = x :: y :: rest ∧ escapedByte? [x, y] = some b ∧
      decode (c :: cs) = b :: decode rest) ∨
    decode (c :: cs) = String.utf8EncodeChar c ++ decode cs := by
  simp only [decode, decodeAfter]
  split
  · rename_i b escape
    obtain ⟨percent, digits⟩ := Option.ite_none_right_eq_some.1 escape
    match cs, digits with
    | x :: y :: rest, digits => exact .inl ⟨x, y, rest, b, percent, rfl, digits, rfl⟩
    | [_], digits => cases digits
    | [], digits => cases digits
  · exact .inr rfl

/-- The digit of a value. -/
theorem of_hexValue? {c : Char} {n : Nat} (h : hexValue? c = some n) :
    n < 10 ∧ c.toNat = 48 + n ∨ 10 ≤ n ∧ n < 16 ∧ (c.toNat = 87 + n ∨ c.toNat = 55 + n) := by
  have le : ∀ {a b : Char}, a ≤ b ↔ a.toNat ≤ b.toNat := Iff.rfl
  simp only [hexValue?, Bool.and_eq_true, decide_eq_true_eq, le] at h
  have zero : '0'.toNat = 48 := rfl
  have nine : '9'.toNat = 57 := rfl
  have small : 'a'.toNat = 97 ∧ 'f'.toNat = 102 := ⟨rfl, rfl⟩
  have capital : 'A'.toNat = 65 ∧ 'F'.toNat = 70 := ⟨rfl, rfl⟩
  repeat' split at h
  all_goals cases h
  all_goals omega

theorem eq_of_escapedByte?_dot {x y : Char} (h : escapedByte? [x, y] = some 46) :
    x = '2' ∧ y.toLower = 'e' := by
  simp only [escapedByte?] at h
  split at h
  · rename_i a b high low
    have value : (a * 16 + b) % 256 = 46 := by
      simpa using congrArg UInt8.toNat (Option.some.inj h)
    have highDigit := of_hexValue? high
    have lowDigit := of_hexValue? low
    have two : x.toNat = 50 := by omega
    have e : y.toNat = 101 ∨ y.toNat = 69 := by omega
    refine ⟨Char.toNat_inj.1 two, ?_⟩
    rcases e with e | e
    · obtain rfl : y = 'e' := Char.toNat_inj.1 e
      rfl
    · obtain rfl : y = 'E' := Char.toNat_inj.1 e
      rfl
  · cases h

theorem eq_nil_of_decode {s : List Char} (h : decode s = []) : s = [] := by
  cases s with
  | nil => rfl
  | cons c cs =>
    rcases decode_cases c cs with ⟨x, y, rest, b, -, -, -, escaped⟩ | plain
    · rw [escaped] at h
      cases h
    · rw [plain] at h
      exact absurd (List.append_eq_nil_iff.1 h).1 (String.utf8EncodeChar_ne_nil)

/-- What is decoded to a dot in front starts with a dot as it may be spelled in a dot segment. -/
theorem dot_of_decode {s : List Char} {bs : List UInt8} (h : decode s = 46 :: bs) :
    ∃ dot rest, s = dot ++ rest ∧ isSingleDot dot = true ∧ decode rest = bs := by
  cases s with
  | nil => cases h
  | cons c cs =>
    rcases decode_cases c cs with ⟨x, y, rest, b, rfl, rfl, digits, escaped⟩ | plain
    · rw [escaped] at h
      obtain ⟨rfl, same⟩ := List.cons.inj h
      obtain ⟨rfl, e⟩ := eq_of_escapedByte?_dot digits
      refine ⟨['%', '2', y], rest, rfl, ?_, same⟩
      simp [isSingleDot, e]
    · rw [plain] at h
      obtain ⟨rfl, same⟩ := eq_dot_of_head h
      exact ⟨['.'], cs, rfl, rfl, same⟩

theorem isSingleDot_iff_decode {s : List Char} : isSingleDot s = true ↔ decode s = bytes ['.'] := by
  refine ⟨decode_of_isSingleDot, fun h => ?_⟩
  obtain ⟨dot, rest, rfl, single, empty⟩ := dot_of_decode h
  rwa [eq_nil_of_decode empty, List.append_nil]

theorem isDoubleDot_iff_decode {s : List Char} :
    isDoubleDot s = true ↔ decode s = bytes ['.', '.'] := by
  refine ⟨decode_of_isDoubleDot, fun h => ?_⟩
  obtain ⟨dot, rest, rfl, first, again⟩ := dot_of_decode h
  obtain ⟨dot', rest', rfl, second, empty⟩ := dot_of_decode again
  rw [eq_nil_of_decode empty, List.append_nil]
  simp only [isSingleDot, isDoubleDot, List.map_append, decide_eq_true_eq, List.mem_cons,
    List.not_mem_nil, or_false] at first second ⊢
  rcases first with h | h <;> rcases second with h' | h' <;> simp [h, h']

/-! ## Segments that are taken literally -/

section

variable (special : Bool)

theorem inSegment_percent : inSegment special '%' = true := by cases special <;> decide

theorem inSegment_dot : inSegment special '.' = false := by cases special <;> decide

theorem inSegment_slash : inSegment special '/' = true := by cases special <;> decide

end

end OfflineSchedule.Url
