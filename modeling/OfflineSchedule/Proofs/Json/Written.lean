import OfflineSchedule.Json.Record
import OfflineSchedule.Proofs.Json.Spelling
/-!
# What is written is read

The compact text of a value that is made of strings, arrays and objects alone has a tree
(`ofText_render`), which differs from `Value.toTree` only in the pieces of strings: a control
character that is written as a `\u` escape is read as a UTF-16 unit. The text spells the tokens of
that tree, without blanks (`spaced_chars`).
-/

namespace OfflineSchedule.Json

/-! ## Strings -/

/-- Whether a control character has an escape of one letter. -/
def hasLetter (c : Char) : Bool :=
  c = '\x08' || c = '\t' || c = '\n' || c = '\x0c' || c = '\r'

/-- The piece as which a written character is read. -/
def Piece.written (c : Char) : Piece :=
  if c.toNat < 0x20 && !hasLetter c then .unit c.toNat else .char c

/-- A character is written as itself, with a backslash and a letter, or by its number. -/
theorem escape_cases (c : Char) :
    (escape c = [c] ∧ c ≠ '"' ∧ c ≠ '\\' ∧ ¬ c.toNat < 0x20 ∧ Piece.written c = .char c) ∨
    (∃ d, escape c = ['\\', d] ∧ d ≠ 'u' ∧ escaped? d = some c ∧ Piece.written c = .char c) ∨
    (c.toNat < 0x20 ∧ Piece.written c = .unit c.toNat ∧
      escape c = ['\\', 'u', '0', '0', hexDigit (c.toNat / 16), hexDigit (c.toNat % 16)]) := by
  by_cases h1 : c = '"'
  · exact .inr (.inl ⟨'"', by subst h1; decide⟩)
  by_cases h2 : c = '\\'
  · exact .inr (.inl ⟨'\\', by subst h2; decide⟩)
  by_cases h3 : c = '\x08'
  · exact .inr (.inl ⟨'b', by subst h3; decide⟩)
  by_cases h4 : c = '\t'
  · exact .inr (.inl ⟨'t', by subst h4; decide⟩)
  by_cases h5 : c = '\n'
  · exact .inr (.inl ⟨'n', by subst h5; decide⟩)
  by_cases h6 : c = '\x0c'
  · exact .inr (.inl ⟨'f', by subst h6; decide⟩)
  by_cases h7 : c = '\r'
  · exact .inr (.inl ⟨'r', by subst h7; decide⟩)
  by_cases h8 : c.toNat < 0x20
  · exact .inr (.inr ⟨h8, by simp [Piece.written, hasLetter, h3, h4, h5, h6, h7, h8],
      by simp [escape, h1, h2, h3, h4, h5, h6, h7, h8]⟩)
  · exact .inl ⟨by simp [escape, h1, h2, h3, h4, h5, h6, h7, h8], h1, h2, h8,
      by simp [Piece.written, h8]⟩

theorem hexDigit?_hexDigit : ∀ n < 16, hexDigit? (hexDigit n) = some n := by decide

/-- A character is written as a spelling of the piece as which it is read. -/
theorem spells_escape (c : Char) : (Piece.written c).Spells ((escape c).map some) := by
  rcases escape_cases c with ⟨he, hq, hb, hc, hw⟩ | ⟨d, he, -, hd, hw⟩ | ⟨hc, hw, he⟩
  · rw [he, hw]
    exact .plain hq hb (Nat.le_of_not_lt hc)
  · rw [he, hw]
    exact .escape hd
  · have high := hexDigit?_hexDigit (c.toNat / 16) (by omega)
    have low := hexDigit?_hexDigit (c.toNat % 16) (by omega)
    have zero : hexDigit? '0' = some 0 := by decide
    have unit := Piece.Spells.unit rfl (.cons zero (.cons zero (.cons high (.cons low .nil))))
    have value : c.toNat / 16 * 16 + c.toNat % 16 = c.toNat := by omega
    rw [he, hw]
    simpa [value] using unit

/-- The pieces as which a written text is read. -/
def Piece.ofWritten (s : String) : List Piece := s.toList.map .written

theorem chars?_unit {u : Nat} {c : Char} (h : unitChar? u = some c) (ps : List Piece) :
    Piece.chars? (.unit u :: ps) = (Piece.chars? ps).map (c :: ·) := by
  rw [Piece.chars?.eq_def]
  simp [h]

theorem chars?_written (cs : List Char) : Piece.chars? (cs.map .written) = some cs := by
  induction cs with
  | nil => rfl
  | cons c cs ih =>
    rw [List.map_cons]
    rcases escape_cases c with ⟨-, -, -, -, hw⟩ | ⟨-, -, -, -, hw⟩ | ⟨hc, hw, -⟩
    · simp [hw, Piece.chars?, ih]
    · simp [hw, Piece.chars?, ih]
    · have hn : ¬ 0xD800 ≤ c.toNat := by omega
      have hu : unitChar? c.toNat = some c := by simp [unitChar?, hn, Char.ofNat_toNat]
      rw [hw, chars?_unit hu, ih]
      rfl

@[simp] theorem text?_ofWritten (s : String) : Piece.text? (Piece.ofWritten s) = some s := by
  simp [Piece.text?, Piece.ofWritten, chars?_written]

/-! ## Texts -/

/-- The characters spell the tokens. -/
def Writes (cs : List Char) (ts : List Token) : Prop := Spaced (cs.map some) ts

theorem Writes.append {cs cs' : List Char} {ts ts' : List Token} (h : Writes cs ts)
    (h' : Writes cs' ts') : Writes (cs ++ cs') (ts ++ ts') := by
  have both := Spaced.append h h'
  rwa [← List.map_append] at both

theorem Writes.mark {c : Char} {t : Token} (h : mark? c = some t) : Writes [c] [t] :=
  (Token.Spells.mark h).spaced

theorem writes_quote (s : String) : Writes (quote s) [.string (Piece.ofWritten s)] := by
  have spell : List.Forall₂ Piece.Spells (Piece.ofWritten s)
      (s.toList.map fun c => (escape c).map some) := by
    rw [Piece.ofWritten, List.forall₂_map_left_iff, List.forall₂_map_right_iff]
    exact List.forall₂_same.2 fun c _ => spells_escape c
  have string := (Token.Spells.string spell).spaced
  simpa [Writes, quote, List.flatMap, List.map_flatten, Function.comp_def] using string

theorem writes_commas {texts : List (List Char)} {tokens : List (List Token)}
    (h : List.Forall₂ Writes texts tokens) : Writes (commas texts) (commaTokens tokens) := by
  have comma : Writes [','] [.comma] := .mark rfl
  induction h with
  | nil => exact .nil
  | @cons a b as bs hab h ih =>
    cases h with
    | nil => exact hab
    | cons _ _ => exact hab.append (comma.append ih)

namespace Value

mutual

/-- Made of strings, arrays and objects alone. -/
def isTextual : Value → Bool
  | .string _ => true
  | .array items => areTextual items
  | .object members => haveTextual members
  | _ => false

def areTextual : List Value → Bool
  | [] => true
  | v :: vs => isTextual v && areTextual vs

def haveTextual : List (String × Value) → Bool
  | [] => true
  | (_, v) :: ms => isTextual v && haveTextual ms

end

mutual

/-- The tree of the text of a value. -/
def written : Value → Tree
  | .null => .null
  | .bool b => .bool b
  | .number n => .number n.chars
  | .string s => .string (Piece.ofWritten s)
  | .array items => .array (writtenItems items)
  | .object members => .object (writtenMembers members)

def writtenItems : List Value → List Tree
  | [] => []
  | v :: vs => written v :: writtenItems vs

def writtenMembers : List (String × Value) → List (List Piece × Tree)
  | [] => []
  | (name, v) :: ms => (Piece.ofWritten name, written v) :: writtenMembers ms

end

mutual

/-- The text of a textual value is that of its tree. -/
theorem writes_chars : ∀ v : Value, v.isTextual → Writes v.chars v.written.tokens
  | .string s, _ => writes_quote s
  | .array items, h => by
    have inner := writes_commas (writes_items items h)
    have opens : Writes ['['] [.openArray] := .mark rfl
    have closes : Writes [']'] [.closeArray] := .mark rfl
    exact opens.append (inner.append closes)
  | .object members, h => by
    have inner := writes_commas (writes_members members h)
    have opens : Writes ['\x7b'] [.openObject] := .mark rfl
    have closes : Writes ['\x7d'] [.closeObject] := .mark rfl
    exact opens.append (inner.append closes)

theorem writes_items : ∀ vs : List Value, areTextual vs →
    List.Forall₂ Writes (itemChars vs) (Tree.itemTokens (writtenItems vs))
  | [], _ => .nil
  | v :: vs, h => by
    simp only [areTextual, Bool.and_eq_true] at h
    exact .cons (writes_chars v h.1) (writes_items vs h.2)

theorem writes_members : ∀ ms : List (String × Value), haveTextual ms →
    List.Forall₂ Writes (memberChars ms) (Tree.memberTokens (writtenMembers ms))
  | [], _ => .nil
  | (name, v) :: ms, h => by
    simp only [haveTextual, Bool.and_eq_true] at h
    have colon : Writes [':'] [.colon] := .mark rfl
    have member := (writes_quote name).append (colon.append (writes_chars v h.1))
    exact .cons member (writes_members ms h.2)

end

end Value

open Value

/-- The text of a value that is made of strings, arrays and objects is read as its tree. -/
theorem ofText_render {v : Value} (h : v.isTextual) : Tree.ofText v.render = some v.written := by
  rw [Tree.ofText, Value.render, String.toList_ofList, ofGlyphs_eq_some_iff]
  exact writes_chars v h

/-! ## Readers -/

@[simp] theorem text?_written (s : String) : Tree.text? (Value.string s).written = some s :=
  text?_ofWritten s

@[simp] theorem nullable?_text?_written (s : String) :
    Tree.nullable? Tree.text? (Value.string s).written = some (some s) := by
  have h := text?_written s
  rw [Value.written] at h ⊢
  rw [Tree.nullable?, h]
  · rfl
  · exact nofun

theorem list?_written {α : Type} {read : Tree → Option α} {write : α → Value}
    (h : ∀ a, read (write a).written = some a) (as : List α) :
    Tree.list? read (Value.array (as.map write)).written = some as := by
  rw [Value.written, Tree.list?]
  induction as with
  | nil => rfl
  | cons a as ih => simp [writtenItems, Tree.each?, h, ih]

@[simp] theorem texts?_written (texts : List String) :
    Tree.list? Tree.text? (Value.ofTexts texts).written = some texts :=
  list?_written text?_written texts

theorem namedMembers_written (ms : List (String × Value)) :
    namedMembers (writtenMembers ms) = some (ms.map fun m => (m.1, m.2.written)) := by
  induction ms with
  | nil => rfl
  | cons m ms ih => simp [writtenMembers, namedMembers, ih]

/-- The members of a written object are found under their names. -/
theorem record?_written (names : List String) (ms : List (String × Value)) :
    (Value.object ms).written.record? names =
      (let r := (ms.map fun m => (m.1, m.2.written)).filter fun m => names.contains m.1
       if isOnce r then some r else none) := by
  simp only [Value.written, Tree.record?, namedMembers_written]

end OfflineSchedule.Json
