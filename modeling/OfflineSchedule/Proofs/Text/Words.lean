import OfflineSchedule.Text.Blank
/-!
# Words of a text

A text that is not all blank starts, apart from blanks, with a word, which reaches to the next blank
or to the end (`FirstWord`). The words of the text are this one and those of what follows it
(`words_eq_cons_iff`).
-/

namespace OfflineSchedule.Text

variable {text word rest : List Char} {ws : List (List Char)}

def AllBlank (text : List Char) : Prop := ∀ c ∈ text, isBlank c = true

/-- Apart from blanks the text starts with the word, and `rest` is what follows it. -/
structure FirstWord (text word rest : List Char) : Prop where
  solid : word ≠ []
  unbroken : ∀ c ∈ word, isBlank c = false
  ends : ∀ c ∈ rest.head?, isBlank c = true
  behind : ∃ blanks, AllBlank blanks ∧ text = blanks ++ word ++ rest

theorem words_blanks_append {blanks : List Char} (h : AllBlank blanks) (text : List Char) :
    words (blanks ++ text) = words text := by
  induction blanks with
  | nil => rfl
  | cons c blanks ih =>
    obtain ⟨blank, others⟩ := List.forall_mem_cons.1 h
    rw [List.cons_append, words_blank blank, ih others]

theorem words_of_allBlank (h : AllBlank text) : words text = [] := by
  have nothing := words_blanks_append h []
  rwa [List.append_nil] at nothing

theorem words_cons {c : Char} (solid : isBlank c = false) (cs : List Char) :
    words (c :: cs) = attach c cs (words cs) := by
  rw [words, solid]
  rfl

/-- What follows a word starts a word of its own. -/
theorem words_word_append (solid : word ≠ []) (unbroken : ∀ c ∈ word, isBlank c = false)
    (ends : ∀ c ∈ rest.head?, isBlank c = true) : words (word ++ rest) = word :: words rest := by
  induction word with
  | nil => exact absurd rfl solid
  | cons c word ih =>
    obtain ⟨first, others⟩ := List.forall_mem_cons.1 unbroken
    rw [List.cons_append, words_cons first]
    cases word with
    | nil =>
      rw [List.nil_append]
      cases rest with
      | nil => rfl
      | cons d rest =>
        have blank : isBlank d = true := ends d rfl
        cases words (d :: rest) with
        | nil => rfl
        | cons => exact if_pos blank
    | cons d word =>
      have solidNext : isBlank d = false := others d List.mem_cons_self
      rw [ih (List.cons_ne_nil d word) others]
      exact if_neg (Bool.not_eq_true _ ▸ solidNext)

theorem words_of_firstWord (h : FirstWord text word rest) : words text = word :: words rest := by
  obtain ⟨blanks, allBlank, rfl⟩ := h.behind
  rw [List.append_assoc, words_blanks_append allBlank,
    words_word_append h.solid h.unbroken h.ends]

theorem allBlank_or_firstWord (text : List Char) :
    AllBlank text ∨ ∃ word rest, FirstWord text word rest := by
  induction text with
  | nil => exact .inl nofun
  | cons c cs ih =>
    cases blank : isBlank c with
    | true =>
      rcases ih with allBlank | ⟨word, rest, first⟩
      · exact .inl (List.forall_mem_cons.2 ⟨blank, allBlank⟩)
      · obtain ⟨blanks, allBlank, rfl⟩ := first.behind
        exact .inr ⟨word, rest, first.solid, first.unbroken, first.ends, c :: blanks,
          List.forall_mem_cons.2 ⟨blank, allBlank⟩, rfl⟩
    | false =>
      refine .inr ⟨c :: cs.takeWhile (!isBlank ·), cs.dropWhile (!isBlank ·),
        List.cons_ne_nil _ _, List.forall_mem_cons.2 ⟨blank, fun d mem => ?_⟩, fun d mem => ?_,
        [], nofun, ?_⟩
      · have solid := List.all_eq_true.1 List.all_takeWhile d mem
        simpa using solid
      · have blankNext := List.head?_dropWhile_not (!isBlank ·) cs
        rw [Option.mem_def.1 mem] at blankNext
        simpa using blankNext
      · rw [List.nil_append, List.cons_append, List.takeWhile_append_dropWhile]

theorem words_eq_nil_iff : words text = [] ↔ AllBlank text := by
  refine ⟨fun none => ?_, words_of_allBlank⟩
  rcases allBlank_or_firstWord text with blank | ⟨word, rest, first⟩
  · exact blank
  · rw [words_of_firstWord first] at none
    cases none

theorem words_eq_cons_iff :
    words text = word :: ws ↔ ∃ rest, FirstWord text word rest ∧ words rest = ws := by
  constructor
  · intro some
    rcases allBlank_or_firstWord text with blank | ⟨word', rest, first⟩
    · rw [words_of_allBlank blank] at some
      cases some
    · rw [words_of_firstWord first] at some
      obtain ⟨rfl, same⟩ := List.cons.inj some
      exact ⟨rest, first, same⟩
  · rintro ⟨rest, first, rfl⟩
    exact words_of_firstWord first

end OfflineSchedule.Text
