import Mathlib.Order.Bounds.Defs
import OfflineSchedule.Command
import OfflineSchedule.Proofs.Arrangement
import OfflineSchedule.Proofs.Text.Words
/-!
# What a typed line asks for

A text may name a command in four ways, of which the best counts (`rank_spec`). The commands
that it may name are arranged by their best ways (`isArranged_suggestions`), and a line asks for the
first of them that its first word may name (`line_asks_for_best_match`).
-/

namespace OfflineSchedule

open Text

/-! ## Small letters -/

namespace Text

/-- The text `t` is `w` in small letters. There are two small letters for a capital sigma. Which of
them it becomes depends on the letters around it. -/
inductive Lowers : (w t : List Char) → Prop where
  | nil : Lowers [] []
  | cons (c : Char) {w t : List Char} (h : Lowers w t) : Lowers (c :: w) (lowerChar c ++ t)
  | sigma {w t : List Char} (h : Lowers w t) : Lowers ('Σ' :: w) ('ς' :: t)

theorem lowers_lowercase (w : List Char) : Lowers w (lowercase w) := by
  induction w with
  | nil => exact .nil
  | cons c w ih => exact .cons c ih

def IsAscii (t : List Char) : Prop := ∀ c ∈ t, c.toNat < 128

/-- The sigmas make no difference to those who look for ASCII. -/
theorem Lowers.eq_or_not_isAscii {w t : List Char} (h : Lowers w t) :
    t = lowercase w ∨ ¬ IsAscii t ∧ ¬ IsAscii (lowercase w) := by
  induction h with
  | nil => exact .inl rfl
  | @cons c w t _ ih =>
    have split : lowercase (c :: w) = lowerChar c ++ lowercase w := rfl
    rw [split]
    refine ih.imp (congrArg _) fun ⟨other, other'⟩ => ⟨fun ascii => other ?_, fun ascii => other' ?_⟩
    · exact fun d mem => ascii d (List.mem_append_right _ mem)
    · exact fun d mem => ascii d (List.mem_append_right _ mem)
  | @sigma w t _ _ =>
    have split : lowercase ('Σ' :: w) = 'σ' :: lowercase w := by
      have small : lowerChar 'Σ' = ['σ'] := by decide
      rw [lowercase, List.flatMap_cons, small]
      rfl
    rw [split]
    refine .inr ⟨fun ascii => ?_, fun ascii => ?_⟩
    · exact absurd (ascii 'ς' List.mem_cons_self) (by decide)
    · exact absurd (ascii 'σ' List.mem_cons_self) (by decide)

theorem lowercase_ne_nil {w : List Char} (h : w ≠ []) : lowercase w ≠ [] := by
  cases w with
  | nil => exact absurd rfl h
  | cons c w =>
    have solid : lowerChar c ≠ [] := by
      unfold lowerChar
      dsimp only
      split
      · exact List.cons_ne_nil _ _
      · split <;> exact List.cons_ne_nil _ _
    exact fun empty => solid (List.append_eq_nil_iff.1 empty).1

end Text

/-! ## Matching -/

namespace Verb

variable {t : List Char} {v : Verb} {k : Nat}

/-- The ways in which a text in small letters may name a command, the best first. -/
inductive Fits (t : List Char) (v : Verb) : Nat → Prop where
  | name (h : v.name.toList = t) : Fits t v 0
  | byAlias (a : String) (mem : a ∈ v.aliases) (h : a.toList = t) : Fits t v 1
  | nameStart (h : t <+: v.name.toList) : Fits t v 2
  | aliasStart (a : String) (mem : a ∈ v.aliases) (h : t <+: a.toList) : Fits t v 3

/-- Some name or alias of the command starts with the text. -/
def MayMean (t : List Char) (v : Verb) : Prop := ∃ a ∈ v.name :: v.aliases, t <+: a.toList

instance (t : List Char) (v : Verb) : Decidable (MayMean t v) :=
  inferInstanceAs (Decidable (∃ a ∈ v.name :: v.aliases, t <+: a.toList))

theorem mayMean_iff : MayMean t v ↔ ∃ k, Fits t v k := by
  simp only [MayMean, List.mem_cons, exists_eq_or_imp]
  constructor
  · rintro (start | ⟨a, mem, start⟩)
    · exact ⟨2, .nameStart start⟩
    · exact ⟨3, .aliasStart a mem start⟩
  · rintro ⟨k, fits⟩
    cases fits with
    | name h => exact .inl (h ▸ List.prefix_rfl)
    | byAlias a mem h => exact .inr ⟨a, mem, h ▸ List.prefix_rfl⟩
    | nameStart h => exact .inl h
    | aliasStart a mem h => exact .inr ⟨a, mem, h⟩

/-- The rank is the best way in which the text may name the command, if there is one. -/
theorem rank_spec (t : List Char) (v : Verb) :
    match rank t v with
    | some k => IsLeast {i | Fits t v i} k
    | none => ∀ i, ¬ Fits t v i := by
  simp only [rank, List.any_eq_true, decide_eq_true_eq, List.isPrefixOf_iff_prefix]
  by_cases name : v.name.toList = t
  · rw [if_pos name]
    exact ⟨.name name, fun _ _ => Nat.zero_le _⟩
  rw [if_neg name]
  by_cases byAlias : ∃ a, a ∈ v.aliases ∧ a.toList = t
  · rw [if_pos byAlias]
    obtain ⟨a, mem, same⟩ := byAlias
    refine ⟨.byAlias a mem same, fun i fits => ?_⟩
    cases fits with
    | name h => exact absurd h name
    | _ => omega
  rw [if_neg byAlias]
  by_cases nameStart : t <+: v.name.toList
  · rw [if_pos nameStart]
    refine ⟨.nameStart nameStart, fun i fits => ?_⟩
    cases fits with
    | name h => exact absurd h name
    | byAlias a mem h => exact absurd ⟨a, mem, h⟩ byAlias
    | _ => omega
  rw [if_neg nameStart]
  by_cases aliasStart : ∃ a, a ∈ v.aliases ∧ t <+: a.toList
  · rw [if_pos aliasStart]
    obtain ⟨a, mem, start⟩ := aliasStart
    refine ⟨.aliasStart a mem start, fun i fits => ?_⟩
    cases fits with
    | name h => exact absurd h name
    | byAlias a mem h => exact absurd ⟨a, mem, h⟩ byAlias
    | nameStart h => exact absurd h nameStart
    | aliasStart => exact Nat.le_refl 3
  · rw [if_neg aliasStart]
    intro i fits
    cases fits with
    | name h => exact name h
    | byAlias a mem h => exact byAlias ⟨a, mem, h⟩
    | nameStart h => exact nameStart h
    | aliasStart a mem h => exact aliasStart ⟨a, mem, h⟩

theorem rank_eq_none_iff : rank t v = none ↔ ¬ MayMean t v := by
  have spec := rank_spec t v
  rw [mayMean_iff]
  split at spec
  · rename_i k rank
    rw [rank]
    exact ⟨nofun, fun unfit => absurd ⟨k, spec.1⟩ unfit⟩
  · rename_i rank
    rw [rank]
    exact ⟨fun _ ⟨i, fits⟩ => spec i fits, fun _ => rfl⟩

/-- The rank of a command that the text may mean. -/
def best (t : List Char) (v : Verb) : Nat := (rank t v).getD 0

theorem rank_eq_best (h : MayMean t v) : rank t v = some (best t v) := by
  cases rank : rank t v with
  | none => exact absurd h (rank_eq_none_iff.1 rank)
  | some k => rw [best, rank, Option.getD_some]

theorem isLeast_best (h : MayMean t v) : IsLeast {i | Fits t v i} (best t v) := by
  have spec := rank_spec t v
  rwa [rank_eq_best h] at spec

/-- The commands that have a rank are those that the text may mean. -/
theorem ranked_eq (t : List Char) :
    (all.filterMap fun v => (rank t v).map fun r => (v, r)) =
      (all.filter (MayMean t)).map fun v => (v, best t v) := by
  rw [← List.filterMap_eq_map, List.filterMap_filter]
  refine List.filterMap_congr fun v _ => ?_
  by_cases may : MayMean t v
  · simp [may, rank_eq_best may]
  · simp [may, rank_eq_none_iff.2 may]

theorem isArranged_suggestions {input : List Char} (h : input ≠ []) :
    IsArranged (best (lowercase input)) (all.filter (MayMean (lowercase input)))
      (suggestions input) := by
  have nonempty : (lowercase input).isEmpty = false := by
    simpa using lowercase_ne_nil h
  rw [suggestions, nonempty, if_neg Bool.false_ne_true, ranked_eq]
  generalize lowercase input = t
  have atMost (a b : Verb × Nat) : decide (a.2 ≤ b.2) = true ↔ a.2 ≤ b.2 := decide_eq_true_iff
  have keys : ∀ p ∈ (all.filter (MayMean t)).map (fun v => (v, best t v)), best t p.1 = p.2 := by
    intro p mem
    obtain ⟨v, -, rfl⟩ := List.mem_map.1 mem
    rfl
  have arranged := (isArranged_mergeSort atMost _).map Prod.fst (best t) keys
  rwa [List.map_map, List.map_id''] at arranged
  exact fun v => rfl

/-- Names and aliases are written in ASCII. -/
theorem all_ascii (v : Verb) :
    (v.name :: v.aliases).all (fun a => a.toList.all (·.toNat < 128)) = true := by
  cases v <;> rfl

theorem MayMean.isAscii (h : MayMean t v) : IsAscii t := by
  obtain ⟨a, mem, start⟩ := h
  have ascii := List.all_eq_true.1 (List.all_eq_true.1 v.all_ascii a mem)
  exact fun c inText => of_decide_eq_true (ascii c (start.subset inText))

theorem filter_mayMean_eq_nil (h : ¬ IsAscii t) : all.filter (MayMean t) = [] :=
  List.filter_eq_nil_iff.2 fun _ _ may => h (of_decide_eq_true may).isAscii

/-- The commands that a text may mean are arranged by their best ways, whatever becomes of capital
sigmas in it. -/
theorem isArranged_of_lowers {input : List Char} (h : input ≠ []) (lowers : Lowers input t) :
    IsArranged (best t) (all.filter (MayMean t)) (suggestions input) := by
  have arranged := isArranged_suggestions h
  rcases lowers.eq_or_not_isAscii with rfl | ⟨other, other'⟩
  · exact arranged
  · rw [filter_mayMean_eq_nil other'] at arranged
    rw [filter_mayMean_eq_nil other, arranged.perm.eq_nil]
    exact ⟨.refl _, .nil, fun _ => rfl⟩

theorem mem_all (v : Verb) : v ∈ all := by cases v <;> decide

theorem nodup_all : all.Nodup := by decide

end Verb

/-! ## Lines -/

namespace Action

/-- What a command asks for, given what follows it on its line. -/
inductive Asks (rest : List Char) : Verb → Action → Prop where
  | use {con rest' : List Char} (h : FirstWord rest con rest') :
      Asks rest .use (.use (String.ofList con))
  | reload : Asks rest .reload .reload
  | clear : Asks rest .clear .clear
  | status : Asks rest .status .status
  | help : Asks rest .help .help
  | quit : Asks rest .quit .quit

variable {rest : List Char} {v : Verb}

theorem ofVerb_eq_ok_iff {action : Action} :
    ofVerb (words rest).head? v = .ok action ↔ Asks rest v action := by
  constructor
  · intro asked
    cases v with
    | use =>
      cases argument : words rest with
      | nil =>
        rw [argument] at asked
        cases asked
      | cons con others =>
        rw [argument] at asked
        cases asked
        obtain ⟨rest', first, -⟩ := words_eq_cons_iff.1 argument
        exact .use first
    | _ =>
      cases asked
      constructor
  · intro asks
    cases asks with
    | use first => rw [words_of_firstWord first]; rfl
    | _ => rfl

theorem ofVerb_eq_error_iff {e : CommandError} :
    ofVerb (words rest).head? v = .error e ↔
      v = .use ∧ AllBlank rest ∧ e = .missingArgument .use := by
  rw [← words_eq_nil_iff]
  cases v with
  | use => cases argument : words rest <;> simp [ofVerb, eq_comm]
  | _ => simp [ofVerb]

theorem ofLine_of_allBlank {line : String} (blank : AllBlank line.toList) :
    ofLine line = .error .empty := by
  rw [ofLine, words_of_allBlank blank]

/-- A line asks for the first of the commands that its first word may mean. -/
theorem ofLine_of_firstWord {line : String} {word : List Char}
    (first : FirstWord line.toList word rest) :
    ofLine line = match (Verb.suggestions word).head? with
      | none => .error (.unknown (String.ofList word))
      | some v => ofVerb (words rest).head? v := by
  rw [ofLine, words_of_firstWord first]
  cases h : Verb.suggestions word with
  | nil => simp [h]
  | cons => simp [h]

theorem ofLine_eq_ok_iff {line : String} {action : Action} :
    ofLine line = .ok action ↔
      ∃ word rest v, FirstWord line.toList word rest ∧ (Verb.suggestions word).head? = some v ∧
        Asks rest v action := by
  constructor
  · intro asked
    rcases allBlank_or_firstWord line.toList with blank | ⟨word, rest, first⟩
    · rw [ofLine_of_allBlank blank] at asked
      cases asked
    · rw [ofLine_of_firstWord first] at asked
      split at asked
      · cases asked
      · rename_i v head
        exact ⟨word, rest, v, first, head, ofVerb_eq_ok_iff.1 asked⟩
  · rintro ⟨word, rest, v, first, head, asks⟩
    rw [ofLine_of_firstWord first, head]
    exact ofVerb_eq_ok_iff.2 asks

theorem ofLine_eq_error_iff {line : String} {e : CommandError} :
    ofLine line = .error e ↔
      AllBlank line.toList ∧ e = .empty ∨
      ∃ word rest, FirstWord line.toList word rest ∧
        (Verb.suggestions word = [] ∧ e = .unknown (String.ofList word) ∨
          (Verb.suggestions word).head? = some .use ∧ AllBlank rest ∧
            e = .missingArgument .use) := by
  constructor
  · intro asked
    rcases allBlank_or_firstWord line.toList with blank | ⟨word, rest, first⟩
    · rw [ofLine_of_allBlank blank] at asked
      cases asked
      exact .inl ⟨blank, rfl⟩
    · refine .inr ⟨word, rest, first, ?_⟩
      rw [ofLine_of_firstWord first] at asked
      split at asked
      · rename_i none
        cases asked
        exact .inl ⟨List.head?_eq_none_iff.1 none, rfl⟩
      · rename_i v head
        obtain ⟨rfl, missing⟩ := ofVerb_eq_error_iff.1 asked
        exact .inr ⟨head, missing⟩
  · rintro (⟨blank, rfl⟩ | ⟨word, rest, first, ⟨none, rfl⟩ | ⟨head, missing⟩⟩)
    · exact ofLine_of_allBlank blank
    · rw [ofLine_of_firstWord first, none]
      rfl
    · rw [ofLine_of_firstWord first, head]
      exact ofVerb_eq_error_iff.2 ⟨rfl, missing⟩

theorem ofLine_congr {line line' : String}
    (same : (words line'.toList).take 2 = (words line.toList).take 2) :
    ofLine line' = ofLine line := by
  unfold ofLine
  match words line'.toList, words line.toList, same with
  | [], [], _ => rfl
  | [w], [w'], same =>
    cases same
    rfl
  | w :: x :: _, w' :: x' :: _, same =>
    cases same
    rfl

/-- **Commands are resolved by their best match.** Let a text that is not empty be given, and its
small letters. The commands that it may mean, by the beginning of a name or alias, are suggested
once each, arranged by the best way in which the text names them, and in the order of the table
otherwise.

A line without a word asks for nothing. Its first word, as it is typed, is unknown exactly if
nothing is suggested for it. Otherwise the line asks for the first suggestion, with the second word
if that is `use`, for which the word is missing exactly if there is none. What follows two words does
not matter. -/
theorem line_asks_for_best_match :
    (∀ input t : List Char, input ≠ [] → Lowers input t →
      (Verb.suggestions input).Nodup ∧
      (∀ v, v ∈ Verb.suggestions input ↔ Verb.MayMean t v) ∧
      ∃ best : Verb → Nat,
        (∀ v ∈ Verb.suggestions input, IsLeast {way | Verb.Fits t v way} (best v)) ∧
        IsArranged best (Verb.all.filter (Verb.MayMean t)) (Verb.suggestions input)) ∧
    ∀ line : String,
      (ofLine line = .error .empty ↔ AllBlank line.toList) ∧
      (∀ word, ofLine line = .error (.unknown word) ↔
        ∃ rest, FirstWord line.toList word.toList rest ∧ Verb.suggestions word.toList = []) ∧
      (∀ v, ofLine line = .error (.missingArgument v) ↔
        v = .use ∧ ∃ word rest, FirstWord line.toList word rest ∧
          (Verb.suggestions word).head? = some .use ∧ AllBlank rest) ∧
      (∀ action, ofLine line = .ok action ↔
        ∃ word rest v, FirstWord line.toList word rest ∧
          (Verb.suggestions word).head? = some v ∧ Asks rest v action) ∧
      ∀ line' : String, (words line'.toList).take 2 = (words line.toList).take 2 →
        ofLine line' = ofLine line := by
  refine ⟨fun input t solid lowers => ?_, fun line => ⟨?_, fun word => ?_, fun v => ?_,
    fun action => ofLine_eq_ok_iff, fun line' same => ?_⟩⟩
  · have arranged := Verb.isArranged_of_lowers solid lowers
    have mem (v : Verb) : v ∈ Verb.suggestions input ↔ Verb.MayMean t v := by
      rw [arranged.perm.mem_iff, List.mem_filter, decide_eq_true_iff]
      exact and_iff_right v.mem_all
    refine ⟨arranged.perm.nodup_iff.2 (Verb.nodup_all.filter _), mem, Verb.best t,
      fun v suggested => Verb.isLeast_best ((mem v).1 suggested), arranged⟩
  · simp [ofLine_eq_error_iff]
  · rw [ofLine_eq_error_iff]
    constructor
    · rintro (⟨-, other⟩ | ⟨w, rest, first, ⟨none, same⟩ | ⟨-, -, other⟩⟩)
      · cases other
      · cases same
        rw [String.toList_ofList]
        exact ⟨rest, first, none⟩
      · cases other
    · rintro ⟨rest, first, none⟩
      exact .inr ⟨word.toList, rest, first, .inl ⟨none, by rw [String.ofList_toList]⟩⟩
  · rw [ofLine_eq_error_iff]
    constructor
    · rintro (⟨-, other⟩ | ⟨word, rest, first, ⟨-, other⟩ | ⟨head, blank, same⟩⟩)
      · cases other
      · cases other
      · cases same
        exact ⟨rfl, word, rest, first, head, blank⟩
    · rintro ⟨rfl, word, rest, first, head, blank⟩
      exact .inr ⟨word, rest, first, .inr ⟨head, blank, rfl⟩⟩
  · exact ofLine_congr same

/-- One letter is an alias of `clear` and starts an alias of `use`, which the table has first. -/
theorem alias_beats_start_of_alias :
    let input := ['C']
    let t := ['c']
    input ≠ [] ∧ Lowers input t ∧ Verb.suggestions input = [.clear, .use] ∧
      (∃ best : Verb → Nat,
        (∀ v ∈ Verb.suggestions input, IsLeast {way | Verb.Fits t v way} (best v)) ∧
        IsArranged best [.use, .clear] (Verb.suggestions input)) ∧
      (words "C\u2003b now".toList).take 2 = (words " C b".toList).take 2 ∧
      ofLine "C\u2003b now" = ofLine " C b" := by
  intro input t
  have solid : input ≠ [] := List.cons_ne_nil _ _
  have small : lowercase input = t := by decide
  have lowers : Lowers input t := small ▸ lowers_lowercase input
  have ranked : (Verb.all.filterMap fun v => (Verb.rank t v).map fun r => (v, r)) =
      [(.use, 3), (.clear, 1)] := by decide
  have suggested : Verb.suggestions input = [.clear, .use] := by
    simp only [Verb.suggestions, small, ranked]
    cbv
  have two : (words "C\u2003b now".toList).take 2 = (words " C b".toList).take 2 := by decide
  have may : Verb.all.filter (Verb.MayMean t) = [.use, .clear] := by decide
  obtain ⟨suggests, asks⟩ := line_asks_for_best_match
  obtain ⟨-, -, best, least, arranged⟩ := suggests input t solid lowers
  rw [may] at arranged
  exact ⟨solid, lowers, suggested, ⟨best, least, arranged⟩, two, (asks _).2.2.2.2 _ two⟩

end Action

end OfflineSchedule
