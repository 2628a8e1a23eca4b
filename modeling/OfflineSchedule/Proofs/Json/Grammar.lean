import OfflineSchedule.Json.Tree
/-!
# Trees and their tokens

The tokens of a tree are a function of it: brackets, commas and colons where they belong and nothing
else. The reader of trees inverts that function (`ofTokens_eq_some_iff`). What it has consumed can
be told from where it stands, the open containers and what may come next, at every step
(`Consumed.step`); and from a place where a value is expected it goes on behind the tokens of any
tree as if the tree had been put there (`run_tree`).
-/

namespace OfflineSchedule.Json

/-- Puts a comma between the given tokens. -/
def commaTokens : List (List Token) → List Token
  | [] => []
  | [a] => a
  | a :: as => a ++ .comma :: commaTokens as

theorem commaTokens_cons (a : List Token) (as : List (List Token)) :
    commaTokens (a :: as) = a ++ as.flatMap (.comma :: ·) := by
  induction as generalizing a with
  | nil => simp [commaTokens]
  | cons b bs ih => simp [commaTokens, ih]

/-- A comma behind each of the tokens is one comma too many. -/
theorem flatMap_comma {as : List (List Token)} (h : as ≠ []) :
    as.flatMap (· ++ [.comma]) = commaTokens as ++ [.comma] := by
  induction as with
  | nil => exact absurd rfl h
  | cons a as ih =>
    cases as with
    | nil => simp [commaTokens]
    | cons b bs => simp [commaTokens, ← ih]

namespace Tree

mutual

/-- The tokens of a tree. -/
def tokens : Tree → List Token
  | .null => [.null]
  | .bool b => [.bool b]
  | .number text => [.number text]
  | .string ps => [.string ps]
  | .array items => .openArray :: commaTokens (itemTokens items) ++ [.closeArray]
  | .object members => .openObject :: commaTokens (memberTokens members) ++ [.closeObject]

def itemTokens : List Tree → List (List Token)
  | [] => []
  | t :: ts => tokens t :: itemTokens ts

def memberTokens : List (List Piece × Tree) → List (List Token)
  | [] => []
  | (name, t) :: ms => (.string name :: .colon :: tokens t) :: memberTokens ms

end

theorem itemTokens_eq (items : List Tree) : itemTokens items = items.map tokens := by
  induction items with
  | nil => rfl
  | cons t ts ih => rw [itemTokens, ih, List.map_cons]

theorem memberTokens_eq (members : List (List Piece × Tree)) :
    memberTokens members = members.map fun m => .string m.1 :: .colon :: tokens m.2 := by
  induction members with
  | nil => rfl
  | cons m ms ih => rw [memberTokens, ih, List.map_cons]

end Tree

open OfflineSchedule.Json.Tree (tokens itemTokens memberTokens itemTokens_eq memberTokens_eq)

/-! ## What has been consumed -/

/-- The tokens of a container up to where its next item, name or value stands. -/
def Frame.lead : Frame → List Token
  | .array items => .openArray :: (itemTokens items.reverse).flatMap (· ++ [.comma])
  | .object members => .openObject :: (memberTokens members.reverse).flatMap (· ++ [.comma])
  | .member members name =>
    .openObject :: (memberTokens members.reverse).flatMap (· ++ [.comma]) ++ [.string name, .colon]

/-- The tokens of all open containers. -/
def leads : List Frame → List Token
  | [] => []
  | f :: fs => leads fs ++ f.lead

theorem lead_array_cons (t : Tree) (items : List Tree) :
    (Frame.array (t :: items)).lead = (Frame.array items).lead ++ t.tokens ++ [.comma] := by
  simp [Frame.lead, itemTokens_eq]

theorem lead_object_cons (name : List Piece) (t : Tree) (members : List (List Piece × Tree)) :
    (Frame.object ((name, t) :: members)).lead =
      (Frame.member members name).lead ++ t.tokens ++ [.comma] := by
  simp [Frame.lead, memberTokens_eq]

/-- An array that has items is closed in the place of a comma. -/
theorem lead_array {items : List Tree} (h : items ≠ []) :
    (Frame.array items).lead = .openArray :: commaTokens (itemTokens items.reverse) ++ [.comma] := by
  rw [Frame.lead, flatMap_comma (by simpa [itemTokens_eq] using h), List.cons_append]

theorem lead_object {members : List (List Piece × Tree)} (h : members ≠ []) :
    (Frame.object members).lead =
      .openObject :: commaTokens (memberTokens members.reverse) ++ [.comma] := by
  rw [Frame.lead, flatMap_comma (by simpa [memberTokens_eq] using h), List.cons_append]

/-- The tokens are those that lead to where the reader stands. -/
def Consumed (ts : List Token) : Progress → Prop
  | .complete t => ts = t.tokens
  | .inside fs .value | .inside fs .name => ts = leads fs
  | .inside fs .firstItem => ts = leads fs ∧ ∃ outer, fs = .array [] :: outer
  | .inside fs .firstName => ts = leads fs ∧ ∃ outer, fs = .object [] :: outer
  | .inside fs .colon => ts ++ [.colon] = leads fs
  | .inside fs .separator => ts ++ [.comma] = leads fs

namespace Consumed

variable {ts : List Token} {t : Token} {fs : List Frame} {p p' : Progress}

theorem put (tree : Tree) (consumed : ts = leads fs) (h : Progress.put tree fs = some p) :
    Consumed (ts ++ tree.tokens) p := by
  subst consumed
  match fs, h with
  | [], h =>
    cases h
    exact List.nil_append _
  | .array items :: fs, h =>
    cases h
    simp only [Consumed, leads, lead_array_cons, List.append_assoc]
  | .member members name :: fs, h =>
    cases h
    simp only [Consumed, leads, lead_object_cons, List.append_assoc]

theorem openValue (consumed : ts = leads fs) (h : Progress.openValue fs t = some p) :
    Consumed (ts ++ [t]) p := by
  cases t with
  | openArray =>
    cases h
    exact ⟨by simp [consumed, leads, Frame.lead, itemTokens], fs, rfl⟩
  | openObject =>
    cases h
    exact ⟨by simp [consumed, leads, Frame.lead, memberTokens], fs, rfl⟩
  | null => exact put .null consumed h
  | bool b => exact put (.bool b) consumed h
  | number text => exact put (.number text) consumed h
  | string ps => exact put (.string ps) consumed h
  | _ => cases h

theorem takeName (consumed : ts = leads fs) (h : Progress.takeName t fs = some p) :
    Consumed (ts ++ [t]) p := by
  match t, fs, h with
  | .string name, .object members :: fs, h =>
    cases h
    simp [Consumed, consumed, leads, Frame.lead]

/-- A container that is still empty is closed. -/
theorem closeEmpty (consumed : ts = leads fs)
    (empty : t = .closeArray ∧ (∃ outer, fs = .array [] :: outer) ∨
      t = .closeObject ∧ ∃ outer, fs = .object [] :: outer)
    (h : Progress.close t fs = some p) : Consumed (ts ++ [t]) p := by
  subst consumed
  rcases empty with ⟨rfl, outer, rfl⟩ | ⟨rfl, outer, rfl⟩ <;>
  · have closed := put _ rfl h
    simpa [tokens, leads, Frame.lead, itemTokens, memberTokens, commaTokens] using closed

/-- A container is closed where a comma might have stood. -/
theorem close (consumed : ts ++ [.comma] = leads fs) (h : Progress.close t fs = some p) :
    Consumed (ts ++ [t]) p := by
  match t, fs, h with
  | .closeArray, .array items :: fs, h =>
    by_cases empty : items = []
    · subst empty
      simp [leads, Frame.lead, itemTokens] at consumed
    · rw [leads, lead_array empty, ← List.append_assoc, List.append_left_inj] at consumed
      have closed := put _ rfl h
      simpa [consumed, tokens] using closed
  | .closeObject, .object members :: fs, h =>
    by_cases empty : members = []
    · subst empty
      simp [leads, Frame.lead, memberTokens] at consumed
    · rw [leads, lead_object empty, ← List.append_assoc, List.append_left_inj] at consumed
      have closed := put _ rfl h
      simpa [consumed, tokens] using closed

theorem afterComma (consumed : ts ++ [.comma] = leads fs)
    (h : Progress.afterComma fs = some p) : Consumed (ts ++ [.comma]) p := by
  match fs, h with
  | .array items :: fs, h =>
    cases h
    exact consumed
  | .object members :: fs, h =>
    cases h
    exact consumed

/-- Each token that is taken is one that has been consumed. -/
theorem step (consumed : Consumed ts p) (h : p.step t = some p') : Consumed (ts ++ [t]) p' := by
  cases p with
  | complete tree => cases h
  | inside fs expect =>
    cases expect with
    | value => exact openValue consumed h
    | firstItem =>
      obtain ⟨consumed, outer⟩ := consumed
      by_cases closes : t = .closeArray
      · rw [Progress.step, if_pos closes] at h
        exact closeEmpty consumed (.inl ⟨closes, outer⟩) h
      · rw [Progress.step, if_neg closes] at h
        exact openValue consumed h
    | firstName =>
      obtain ⟨consumed, outer⟩ := consumed
      by_cases closes : t = .closeObject
      · rw [Progress.step, if_pos closes] at h
        exact closeEmpty consumed (.inr ⟨closes, outer⟩) h
      · rw [Progress.step, if_neg closes] at h
        exact takeName consumed h
    | name => exact takeName consumed h
    | colon =>
      obtain ⟨rfl, after⟩ := Option.ite_none_right_eq_some.1 h
      cases after
      exact consumed
    | separator =>
      by_cases comma : t = .comma
      · subst comma
        exact afterComma consumed h
      · rw [Progress.step, if_neg comma] at h
        exact close consumed h

end Consumed

theorem run_cons (p : Progress) (t : Token) (ts : List Token) :
    p.run (t :: ts) = (p.step t).bind (·.run ts) := by
  rw [Progress.run]
  cases p.step t <;> rfl

theorem Consumed.run {front ts : List Token} {p p' : Progress} (consumed : Consumed front p)
    (h : p.run ts = some p') : Consumed (front ++ ts) p' := by
  induction ts generalizing front p with
  | nil =>
    cases h
    simpa using consumed
  | cons t ts ih =>
    rw [run_cons] at h
    obtain ⟨q, step, rest⟩ := Option.bind_eq_some_iff.1 h
    simpa using ih (consumed.step step) rest

/-! ## What is consumed -/

/-- A value does not begin with the end of an array. -/
theorem run_firstItem (t : Tree) (fs : List Frame) (ts : List Token) :
    Progress.run (.inside fs .firstItem) (t.tokens ++ ts) =
      Progress.run (.inside fs .value) (t.tokens ++ ts) := by
  cases t <;> simp [tokens, run_cons, Progress.step]

mutual

/-- Behind the tokens of a tree the reader goes on as if the tree had been put there. -/
theorem run_tree : ∀ t : Tree, ∀ fs ts,
    Progress.run (.inside fs .value) (t.tokens ++ ts) = (Progress.put t fs).bind (·.run ts)
  | .null, fs, ts => by simp [tokens, run_cons, Progress.step, Progress.openValue]
  | .bool b, fs, ts => by simp [tokens, run_cons, Progress.step, Progress.openValue]
  | .number text, fs, ts => by simp [tokens, run_cons, Progress.step, Progress.openValue]
  | .string ps, fs, ts => by simp [tokens, run_cons, Progress.step, Progress.openValue]
  | .array [], fs, ts => by
    simp [tokens, itemTokens, commaTokens, run_cons, Progress.step, Progress.openValue,
      Progress.close]
  | .array (t :: items), fs, ts => by
    have rest := run_items items [t] fs ts
    simp only [tokens, itemTokens, commaTokens_cons, List.cons_append, List.append_assoc, run_cons,
      Progress.step, Progress.openValue, Option.bind_some, run_firstItem, run_tree t,
      Progress.put, List.nil_append, rest]
    simp
  | .object [], fs, ts => by
    simp [tokens, memberTokens, commaTokens, run_cons, Progress.step, Progress.openValue,
      Progress.close]
  | .object ((name, t) :: members), fs, ts => by
    have rest := run_members members [(name, t)] fs ts
    simp [tokens, memberTokens, commaTokens_cons, run_cons, Progress.step, Progress.openValue,
      Progress.takeName, run_tree t, Progress.put, rest]

theorem run_items : ∀ items : List Tree, ∀ done fs ts,
    Progress.run (.inside (.array done :: fs) .separator)
      ((itemTokens items).flatMap (.comma :: ·) ++ .closeArray :: ts) =
      (Progress.put (.array (done.reverse ++ items)) fs).bind (·.run ts)
  | [], done, fs, ts => by simp [itemTokens, run_cons, Progress.step, Progress.close]
  | t :: items, done, fs, ts => by
    have rest := run_items items (t :: done) fs ts
    simp [itemTokens, run_cons, Progress.step, Progress.afterComma, run_tree t, Progress.put, rest]

theorem run_members : ∀ members : List (List Piece × Tree), ∀ done fs ts,
    Progress.run (.inside (.object done :: fs) .separator)
      ((memberTokens members).flatMap (.comma :: ·) ++ .closeObject :: ts) =
      (Progress.put (.object (done.reverse ++ members)) fs).bind (·.run ts)
  | [], done, fs, ts => by simp [memberTokens, run_cons, Progress.step, Progress.close]
  | (name, t) :: members, done, fs, ts => by
    have rest := run_members members ((name, t) :: done) fs ts
    simp [memberTokens, run_cons, Progress.step, Progress.afterComma, Progress.takeName,
      run_tree t, Progress.put, rest]

end

/-- A list of tokens is read as the tree whose tokens they are. -/
theorem ofTokens_eq_some_iff {ts : List Token} {t : Tree} :
    Tree.ofTokens ts = some t ↔ ts = t.tokens := by
  constructor
  · intro h
    obtain ⟨p, run, complete⟩ := Option.bind_eq_some_iff.1 h
    have begins : Consumed [] (.inside [] .value) := rfl
    have consumed : Consumed ts p := begins.run run
    match p, complete, consumed with
    | .complete _, rfl, consumed => exact consumed
  · rintro rfl
    have run := run_tree t [] []
    rw [List.append_nil] at run
    rw [Tree.ofTokens, run]
    rfl

end OfflineSchedule.Json
