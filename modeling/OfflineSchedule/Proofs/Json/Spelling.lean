import Mathlib.Data.List.Chain
import Mathlib.Data.List.Forall2
import OfflineSchedule.Proofs.Json.Grammar
import OfflineSchedule.Proofs.Json.Numeral
/-!
# Trees and their texts

How tokens may be written, and that blanks may stand around them, is all that is left of the grammar
of JSON texts once the tokens of a tree are known. The lexer reads a text as the tokens that it
spells: what it has read is spelled by the tokens behind it and the beginning of one more
(`Mode.Pending`), and where no two words meet there is no other way to read a text
(`lexFrom_spaced`). A text therefore has a tree if and only if it spells the tokens of that tree
(`ofGlyphs_eq_some_iff`).
-/

namespace OfflineSchedule.Json

/-! ## Tokens -/

/-- A part of a string as it is written. -/
inductive Piece.Spells : Piece → List (Option Char) → Prop where
  | plain {c : Char} (quote : c ≠ '"') (backslash : c ≠ '\\') (printable : 0x20 ≤ c.toNat) :
    Spells (.char c) [some c]
  | escape {c d : Char} (stands : escaped? c = some d) : Spells (.char d) [some '\\', some c]
  | unit {digits : List Char} {ns : List Nat} (four : digits.length = 4)
    (hex : List.Forall₂ (fun c n => hexDigit? c = some n) digits ns) :
    Spells (.unit (ns.foldl (· * 16 + ·) 0)) (some '\\' :: some 'u' :: digits.map some)
  | undecodable : Spells .undecodable [none]

/-- A token as it is written. -/
inductive Token.Spells : Token → List (Option Char) → Prop where
  | mark {c : Char} {t : Token} (is : mark? c = some t) : Spells t [some c]
  | word {w : List Char} {t : Token} (is : word? w = some t) : Spells t (w.map some)
  | number {text : List Char} (numeral : IsNumeral text) : Spells (.number text) (text.map some)
  | string {pieces : List Piece} {texts : List (List (Option Char))}
    (spell : List.Forall₂ Piece.Spells pieces texts) :
    Spells (.string pieces) (some '"' :: texts.flatten ++ [some '"'])

/-- Tokens as they are written, one behind the other, with any blanks around them. -/
inductive Spaced : List (Option Char) → List Token → Prop where
  | nil : Spaced [] []
  | blank {c : Char} {gs : List (Option Char)} {ts : List Token} (space : isSpace c = true)
    (rest : Spaced gs ts) : Spaced (some c :: gs) ts
  | token {t : Token} {text gs : List (Option Char)} {ts : List Token} (spell : t.Spells text)
    (rest : Spaced gs ts) : Spaced (text ++ gs) (t :: ts)

section

variable {gs gs' text pending : List (Option Char)} {ts ts' done : List Token} {t : Token}
  {g : Option Char} {c : Char} {m m' : Mode}

theorem Spaced.append (h : Spaced gs ts) (h' : Spaced gs' ts') : Spaced (gs ++ gs') (ts ++ ts') := by
  induction h with
  | nil => exact h'
  | blank space _ ih => exact .blank space ih
  | token spell _ ih =>
    rw [List.append_assoc]
    exact .token spell ih

theorem Token.Spells.spaced (h : t.Spells text) : Spaced text [t] := by
  have spaced := Spaced.token h .nil
  rwa [List.append_nil] at spaced

/-! ## What has been read -/

/-- The glyphs that have been read of a token that is not complete. -/
def Mode.Pending : Mode → List (Option Char) → Prop
  | .between, gs => gs = []
  | .word read, gs | .number read, gs => gs = read.reverse.map some
  | .string read, gs =>
    ∃ texts, List.Forall₂ Piece.Spells read.reverse texts ∧ gs = some '"' :: texts.flatten
  | .escape read, gs =>
    ∃ texts, List.Forall₂ Piece.Spells read.reverse texts ∧
      gs = some '"' :: texts.flatten ++ [some '\\']
  | .unit read left value, gs =>
    ∃ texts digits ns, List.Forall₂ Piece.Spells read.reverse texts ∧
      List.Forall₂ (fun c n => hexDigit? c = some n) digits ns ∧ digits.length + left = 3 ∧
      value = ns.foldl (· * 16 + ·) 0 ∧
      gs = some '"' :: texts.flatten ++ some '\\' :: some 'u' :: digits.map some

/-- The glyphs are some tokens and what is pending behind them. -/
def Cut (m : Mode) (ts : List Token) (gs : List (Option Char)) : Prop :=
  ∃ front pending, gs = front ++ pending ∧ Spaced front ts ∧ m.Pending pending

namespace Cut

theorem of_pending (h : m.Pending gs) : Cut m [] gs := ⟨[], gs, rfl, .nil, h⟩

theorem of_spaced (h : Spaced gs ts) : Cut .between ts gs :=
  ⟨gs, [], (List.append_nil gs).symm, h, rfl⟩

theorem append (h : Spaced gs ts) (h' : Cut m ts' gs') : Cut m (ts ++ ts') (gs ++ gs') := by
  obtain ⟨front, pending, rfl, spaced, mode⟩ := h'
  exact ⟨gs ++ front, pending, (List.append_assoc ..).symm, h.append spaced, mode⟩

theorem start (h : Mode.start? c = some (m, ts)) : Cut m ts [some c] := by
  unfold Mode.start? at h
  split at h
  · rename_i space
    cases h
    exact of_spaced (.blank space .nil)
  · split at h
    · rename_i quote
      cases h
      exact of_pending ⟨[], .nil, by rw [quote]; rfl⟩
    · split at h
      · cases h
        exact of_pending rfl
      · split at h
        · cases h
          exact of_pending rfl
        · obtain ⟨t, mark, same⟩ := Option.map_eq_some_iff.1 h
          cases same
          exact of_spaced (Token.Spells.mark mark).spaced

/-- Where a token ends, the next one begins. -/
theorem startBehind (spell : t.Spells text)
    (h : ((Mode.start? c).bind fun p => some (p.1, t :: p.2)) = some (m, ts)) :
    Cut m ts (text ++ [some c]) := by
  obtain ⟨⟨m', ts'⟩, starts, same⟩ := Option.bind_eq_some_iff.1 h
  cases same
  exact append spell.spaced (start starts)

end Cut

theorem word?_spells {w : List Char} (h : word? w = some t) : t.Spells (w.map some) := .word h

theorem number?_spells {w : List Char} (h : number? w = some t) : t.Spells (w.map some) := by
  obtain ⟨numeral, same⟩ := Option.ite_none_right_eq_some.1 h
  cases same
  exact .number (isNumber_iff.1 numeral)

theorem forall₂_snoc {α β : Type} {R : α → β → Prop} {as : List α} {bs : List β} {a : α} {b : β}
    (h : List.Forall₂ R as bs) (last : R a b) : List.Forall₂ R (as ++ [a]) (bs ++ [b]) :=
  List.rel_append h (.cons last .nil)

/-- Each glyph belongs to the token that is pending, or to the next one. -/
theorem Mode.Pending.next (h : m.Pending pending) (next : m.next? c = some (m', ts)) :
    Cut m' ts (pending ++ [some c]) := by
  cases m with
  | between =>
    subst h
    exact .start next
  | word read =>
    subst h
    simp only [Mode.next?] at next
    split at next
    · cases next
      exact .of_pending (by simp [Mode.Pending])
    · obtain ⟨t, word, next⟩ := Option.bind_eq_some_iff.1 next
      exact .startBehind (word?_spells word) next
  | number read =>
    subst h
    simp only [Mode.next?] at next
    split at next
    · cases next
      exact .of_pending (by simp [Mode.Pending])
    · obtain ⟨t, number, next⟩ := Option.bind_eq_some_iff.1 next
      exact .startBehind (number?_spells number) next
  | string read =>
    obtain ⟨texts, spell, rfl⟩ := h
    simp only [Mode.next?] at next
    split at next
    · rename_i quote
      cases next
      rw [quote]
      exact .of_spaced (Token.Spells.string spell).spaced
    · split at next
      · rename_i backslash
        cases next
        exact .of_pending ⟨texts, spell, by rw [backslash]⟩
      · split at next
        · cases next
        · rename_i quote backslash printable
          cases next
          have plain := Piece.Spells.plain quote backslash (Nat.le_of_not_lt printable)
          exact .of_pending ⟨texts ++ [[some c]], by simpa using forall₂_snoc spell plain,
            by simp⟩
  | escape read =>
    obtain ⟨texts, spell, rfl⟩ := h
    simp only [Mode.next?] at next
    split at next
    · rename_i letter
      cases next
      exact .of_pending ⟨texts, [], [], spell, .nil, rfl, rfl, by simp [letter]⟩
    · obtain ⟨d, stands, same⟩ := Option.map_eq_some_iff.1 next
      cases same
      exact .of_pending ⟨texts ++ [[some '\\', some c]],
        by simpa using forall₂_snoc spell (.escape stands), by simp⟩
  | unit read left value =>
    obtain ⟨texts, digits, ns, spell, hex, three, rfl, rfl⟩ := h
    obtain ⟨n, digit, same⟩ := Option.map_eq_some_iff.1 next
    have hex' := forall₂_snoc hex digit
    cases left with
    | zero =>
      cases same
      have unit := Piece.Spells.unit (by simpa using three) hex'
      exact .of_pending ⟨texts ++ [_], by simpa using forall₂_snoc spell unit, by simp⟩
    | succ left =>
      cases same
      exact .of_pending ⟨texts, digits ++ [c], ns ++ [n], spell, hex',
        by rw [List.length_append, List.length_singleton]; omega, by simp, by simp⟩

theorem Mode.Pending.step (h : m.Pending pending) (step : m.step? g = some (m', ts)) :
    Cut m' ts (pending ++ [g]) := by
  cases g with
  | some c => exact h.next step
  | none =>
    cases m with
    | string read =>
      obtain ⟨texts, spell, rfl⟩ := h
      cases step
      exact .of_pending ⟨texts ++ [[none]], by simpa using forall₂_snoc spell .undecodable,
        by simp⟩
    | _ => cases step

theorem Mode.Pending.finish (h : m.Pending pending) (finish : m.finish? = some ts) :
    Spaced pending ts := by
  cases m with
  | between =>
    subst h
    cases finish
    exact .nil
  | word read =>
    subst h
    obtain ⟨t, word, same⟩ := Option.map_eq_some_iff.1 finish
    cases same
    exact (word?_spells word).spaced
  | number read =>
    subst h
    obtain ⟨t, number, same⟩ := Option.map_eq_some_iff.1 finish
    cases same
    exact (number?_spells number).spaced
  | _ => cases finish

theorem Cut.lexFrom (cut : Cut m done.reverse gs) (h : lexFrom m done gs' = some ts) :
    Spaced (gs ++ gs') ts := by
  induction gs' generalizing m done gs with
  | nil =>
    obtain ⟨front, pending, rfl, spaced, mode⟩ := cut
    obtain ⟨last, finish, rfl⟩ := Option.map_eq_some_iff.1 h
    rw [List.append_nil]
    exact spaced.append (mode.finish finish)
  | cons g gs' ih =>
    obtain ⟨front, pending, rfl, spaced, mode⟩ := cut
    simp only [Json.lexFrom] at h
    split at h
    · rename_i m' ts' step
      have next := Cut.append spaced (mode.step step)
      rw [← List.append_assoc] at next
      have whole := ih (by rwa [List.reverse_append, List.reverse_reverse]) h
      rwa [List.append_assoc, List.singleton_append] at whole
    · cases h

theorem spaced_of_lex (h : Token.lex gs = some ts) : Spaced gs ts :=
  have begins : Cut .between (List.reverse []) [] := .of_spaced .nil
  begins.lexFrom h

/-! ## What is read -/

/-- A token that ends only where something else than a letter or a digit comes. -/
def Token.isWord : Token → Bool
  | .null | .bool _ | .number _ => true
  | _ => false

/-- No two words meet. -/
def Separated (ts : List Token) : Prop := ts.IsChain fun a b => a.isWord = true → b.isWord = false

/-- A word may end in front of the glyphs. -/
def EndsWord (gs : List (Option Char)) : Prop :=
  ∀ g ∈ gs.head?, ∃ c, g = some c ∧ isLetter c = false ∧ isNumberChar c = false

theorem start?_of_mark (h : mark? c = some t) : Mode.start? c = some (.between, [t]) := by
  unfold mark? at h
  split at h <;> cases h <;> decide

theorem Spaced.endsWord (h : Spaced gs ts) (first : ∀ t ∈ ts.head?, t.isWord = false) :
    EndsWord gs := by
  cases h with
  | nil => nofun
  | @blank c gs _ space =>
    rintro g ⟨⟩
    simp only [isSpace, Bool.or_eq_true, decide_eq_true_eq] at space
    refine ⟨c, rfl, ?_⟩
    rcases space with ((rfl | rfl) | rfl) | rfl <;> decide
  | @token t text gs ts spell rest =>
    have notWord : t.isWord = false := first t rfl
    cases spell with
    | @mark c _ is =>
      rintro g ⟨⟩
      refine ⟨c, rfl, ?_⟩
      unfold mark? at is
      split at is <;> first | decide | cases is
    | @word w _ is =>
      unfold word? at is
      split_ifs at is <;> cases is <;> cases notWord
    | number => cases notWord
    | string =>
      rintro g ⟨⟩
      exact ⟨'"', rfl, by decide⟩

theorem lexFrom_cons (m : Mode) (done : List Token) (c : Char) (gs : List (Option Char)) :
    lexFrom m done (some c :: gs) =
      (m.next? c).bind fun p => lexFrom p.1 (p.2.reverse ++ done) gs := by
  rw [lexFrom, Mode.step?]
  cases m.next? c <;> rfl

theorem lexFrom_between_nil (done : List Token) : lexFrom .between done [] = some done.reverse := by
  simp [lexFrom, Mode.finish?]

/-- Blanks are passed over. -/
theorem lexFrom_blank (space : isSpace c = true) (done : List Token) (gs : List (Option Char)) :
    lexFrom .between done (some c :: gs) = lexFrom .between done gs := by
  simp [lexFrom_cons, Mode.next?, Mode.start?, space]

theorem lexFrom_piece {p : Piece} (spell : p.Spells text) (read : List Piece) (done : List Token)
    (gs : List (Option Char)) :
    lexFrom (.string read) done (text ++ gs) = lexFrom (.string (p :: read)) done gs := by
  cases spell with
  | plain quote backslash printable =>
    simp [lexFrom_cons, Mode.next?, quote, backslash, Nat.not_lt.2 printable]
  | @escape c d stands =>
    have notUnit : c ≠ 'u' := by
      rintro rfl
      cases stands
    simp [lexFrom_cons, Mode.next?, notUnit, stands]
  | @unit digits ns four hex =>
    obtain ⟨c₁, c₂, c₃, c₄, rfl⟩ := List.length_eq_four.1 four
    obtain _ | ⟨h₁, _ | ⟨h₂, _ | ⟨h₃, _ | ⟨h₄, _ | _⟩⟩⟩⟩ := hex
    simp [lexFrom_cons, Mode.next?, h₁, h₂, h₃, h₄]
  | undecodable => simp [lexFrom, Mode.step?]

theorem lexFrom_pieces {pieces : List Piece} {texts : List (List (Option Char))}
    (spell : List.Forall₂ Piece.Spells pieces texts) (read : List Piece) (done : List Token)
    (gs : List (Option Char)) :
    lexFrom (.string read) done (texts.flatten ++ gs) =
      lexFrom (.string (pieces.reverse ++ read)) done gs := by
  induction spell generalizing read with
  | nil => rfl
  | cons piece _ ih =>
    rw [List.flatten_cons, List.append_assoc, lexFrom_piece piece, ih, List.reverse_cons,
      List.append_assoc, List.singleton_append]

/-- The characters of a number are read one after the other. -/
theorem lexFrom_number {cs : List Char} (all : ∀ c ∈ cs, isNumberChar c = true) (read : List Char)
    (done : List Token) (gs : List (Option Char)) :
    lexFrom (.number read) done (cs.map some ++ gs) =
      lexFrom (.number (cs.reverse ++ read)) done gs := by
  induction cs generalizing read with
  | nil => rfl
  | cons c cs ih =>
    obtain ⟨first, others⟩ := List.forall_mem_cons.1 all
    rw [List.map_cons, List.cons_append, lexFrom_cons, Mode.next?, if_pos first,
      Option.bind_some, List.reverse_nil, List.nil_append, ih others, List.reverse_cons,
      List.append_assoc, List.singleton_append]

/-- A word that has been read whole is a token. -/
theorem lexFrom_word_end {read : List Char} (word : word? read.reverse = some t)
    (ends : EndsWord gs) (done : List Token) :
    lexFrom (.word read) done gs = lexFrom .between (t :: done) gs := by
  cases gs with
  | nil => simp [lexFrom, Mode.finish?, word]
  | cons g gs =>
    obtain ⟨c, rfl, notLetter, -⟩ := ends g rfl
    cases starts : Mode.start? c <;> simp [lexFrom_cons, Mode.next?, notLetter, word, starts]

theorem lexFrom_number_end {read : List Char} (number : number? read.reverse = some t)
    (ends : EndsWord gs) (done : List Token) :
    lexFrom (.number read) done gs = lexFrom .between (t :: done) gs := by
  cases gs with
  | nil => simp [lexFrom, Mode.finish?, number]
  | cons g gs =>
    obtain ⟨c, rfl, -, notNumber⟩ := ends g rfl
    cases starts : Mode.start? c <;> simp [lexFrom_cons, Mode.next?, notNumber, number, starts]

/-- A token that something else than a word follows is read. -/
theorem lexFrom_token (spell : t.Spells text) (ends : t.isWord = true → EndsWord gs)
    (done : List Token) :
    lexFrom .between done (text ++ gs) = lexFrom .between (t :: done) gs := by
  cases spell with
  | mark is => simp [lexFrom_cons, Mode.next?, start?_of_mark is]
  | @word w _ is =>
    have isWord : t.isWord = true := by
      unfold word? at is
      split_ifs at is <;> cases is <;> rfl
    have read : lexFrom .between done (w.map some ++ gs) = lexFrom (.word w.reverse) done gs := by
      unfold word? at is
      split_ifs at is with null yes no
      · subst null
        rfl
      · subst yes
        rfl
      · subst no
        rfl
    rw [read]
    exact lexFrom_word_end (by rwa [List.reverse_reverse]) (ends isWord) done
  | @number text numeral =>
    obtain ⟨c, tail, rfl, starts⟩ := numeral.start?
    have others := (List.forall_mem_cons.1 numeral.isNumberChar).2
    have number : number? ((tail.reverse ++ [c]).reverse) = some (.number (c :: tail)) := by
      simp [number?, isNumber_iff.2 numeral]
    rw [List.map_cons, List.cons_append, lexFrom_cons, Mode.next?, starts, Option.bind_some,
      List.reverse_nil, List.nil_append, lexFrom_number others]
    exact lexFrom_number_end number (ends rfl) done
  | string spell =>
    have starts : Mode.start? '"' = some (.string [], []) := by decide
    rw [List.append_assoc, List.cons_append, lexFrom_cons, Mode.next?, starts, Option.bind_some,
      List.reverse_nil, List.nil_append, lexFrom_pieces spell]
    simp [lexFrom_cons, Mode.next?]

/-- A text in which no two words meet is read as the tokens that it spells. -/
theorem lexFrom_spaced (h : Spaced gs ts) (separated : Separated ts) (done : List Token) :
    lexFrom .between done gs = some (done.reverse ++ ts) := by
  induction h generalizing done with
  | nil => rw [lexFrom_between_nil, List.append_nil]
  | blank space _ ih => rw [lexFrom_blank space, ih separated]
  | @token t text gs ts spell rest ih =>
    obtain ⟨next, separated⟩ := List.isChain_cons.1 separated
    rw [lexFrom_token spell fun word => rest.endsWord fun u head => next u head word,
      ih separated, List.reverse_cons, List.append_assoc, List.singleton_append]

end

/-! ## Trees -/

section

variable {ts ts' : List Token} {t : Token}

/-- What is no word separates. -/
theorem Separated.append (h : Separated ts) (h' : Separated ts') (mark : t.isWord = false) :
    Separated (ts ++ t :: ts') := by
  refine List.isChain_append.2 ⟨h, List.isChain_cons.2 ⟨fun _ _ word => ?_, h'⟩,
    fun _ _ _ head _ => ?_⟩
  · rw [mark] at word
    cases word
  · cases head
    exact mark

theorem separated_commas {as : List (List Token)} (h : ∀ a ∈ as, Separated a) :
    Separated (commaTokens as) := by
  induction as with
  | nil => exact .nil
  | cons a as ih =>
    obtain ⟨first, others⟩ := List.forall_mem_cons.1 h
    cases as with
    | nil => exact first
    | cons b bs => exact first.append (ih others) rfl

mutual

theorem separated_tokens : ∀ t : Tree, Separated t.tokens
  | .null | .bool _ | .number _ | .string _ => .singleton _
  | .array items =>
    have opened := Separated.append .nil (separated_commas (separated_items items)) rfl
    opened.append .nil rfl
  | .object members =>
    have opened := Separated.append .nil (separated_commas (separated_members members)) rfl
    opened.append .nil rfl

theorem separated_items : ∀ items : List Tree, ∀ a ∈ Tree.itemTokens items, Separated a
  | [] => nofun
  | t :: items => List.forall_mem_cons.2 ⟨separated_tokens t, separated_items items⟩

theorem separated_members : ∀ members : List (List Piece × Tree),
    ∀ a ∈ Tree.memberTokens members, Separated a
  | [] => nofun
  | (name, t) :: members =>
    have named : Separated [.string name] := .singleton _
    have member := named.append (separated_tokens t) (show Token.isWord .colon = false from rfl)
    List.forall_mem_cons.2 ⟨member, separated_members members⟩

end

/-- A text has a tree if it spells the tokens of the tree, in any of the ways in which they may be
written and with any blanks, and it has no other. -/
theorem ofGlyphs_eq_some_iff {gs : List (Option Char)} {t : Tree} :
    Tree.ofGlyphs gs = some t ↔ Spaced gs t.tokens := by
  constructor
  · intro h
    obtain ⟨ts, lexed, parsed⟩ := Option.bind_eq_some_iff.1 h
    rw [← ofTokens_eq_some_iff.1 parsed]
    exact spaced_of_lex lexed
  · intro h
    have lexed : Token.lex gs = some t.tokens := lexFrom_spaced h (separated_tokens t) []
    rw [Tree.ofGlyphs, lexed, Option.bind_some]
    exact ofTokens_eq_some_iff.2 rfl

end

end OfflineSchedule.Json
