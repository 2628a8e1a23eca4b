import OfflineSchedule.Watch.Inbox
/-!
# What becomes of notices

An inbox is sent notices and gives them out, in any order of the two. Lines and the end of the input
come out as they were sent, each once (`Run.inputs_eq`); a change that comes out has the names that
were sent since the last one, each once (`Run.next_changed`). So a change that was sent is
reported by the next change that is taken after it (`Run.reported`).
-/

namespace OfflineSchedule.Watch

variable {ν : Type}

/-- What is done with an inbox. -/
inductive Use (ν : Type) where
  | sent (n : Notice ν)
  | took (n : Notice ν)
deriving DecidableEq, Repr

/-- A change that is sent is that of one resource. -/
def Notice.IsSingle : Notice ν → Prop
  | .changed names => ∃ name, names = [name]
  | _ => True

namespace Use

/-- The notices that were sent, in order. What has been done is given backwards. -/
def allSent : List (Use ν) → List (Notice ν)
  | [] => []
  | .sent n :: past => allSent past ++ [n]
  | .took _ :: past => allSent past

/-- The notices that were taken, in order. -/
def allTaken : List (Use ν) → List (Notice ν)
  | [] => []
  | .sent _ :: past => allTaken past
  | .took n :: past => allTaken past ++ [n]

/-- The names of the changes that were sent since a change was taken last. -/
def unreported : List (Use ν) → List ν
  | [] => []
  | .sent (.changed names) :: past => unreported past ++ names
  | .sent _ :: past => unreported past
  | .took (.changed _) :: _ => []
  | .took _ :: past => unreported past

/-- Every change that was sent has been reported by a change that was taken afterwards. -/
def AllReported (past : List (Use ν)) : Prop :=
  ∀ later earlier x, past = later ++ .sent (.changed [x]) :: earlier →
    ∃ ns, .took (.changed ns) ∈ later ∧ x ∈ ns

end Use

namespace Inbox

open Use

/-- All but the changes: the lines and the end of the input. -/
def inputs (ns : List (Notice ν)) : List (Notice ν) := ns.filter (!isChange ·)

@[simp] theorem inputs_append (ns ms : List (Notice ν)) :
    inputs (ns ++ ms) = inputs ns ++ inputs ms := List.filter_append ..

theorem inputs_of_not_isChange {n : Notice ν} (h : isChange n = false) : inputs [n] = [n] := by
  simp [inputs, h]

/-! ## Merging names -/

/-- The names of all changes. -/
def names : List (Notice ν) → List ν
  | [] => []
  | .changed more :: q => more ++ names q
  | _ :: q => names q

theorem names_append (p q : List (Notice ν)) : names (p ++ q) = names p ++ names q := by
  induction p with
  | nil => rfl
  | cons n p ih => cases n <;> simp [names, ih]

section

variable [DecidableEq ν]

theorem mem_addNames {x : ν} (ns more : List ν) : x ∈ addNames ns more ↔ x ∈ ns ∨ x ∈ more := by
  induction more generalizing ns with
  | nil => simp [addNames]
  | cons n more ih =>
    rw [addNames, ih, List.mem_cons, ← or_assoc]
    refine or_congr_left ?_
    split
    · rename_i known
      exact (or_iff_left_of_imp fun same => same ▸ known).symm
    · rw [List.mem_append, List.mem_singleton]

theorem nodup_addNames {ns : List ν} (h : ns.Nodup) (more : List ν) : (addNames ns more).Nodup := by
  induction more generalizing ns with
  | nil => exact h
  | cons n more ih =>
    rw [addNames]
    split
    · exact ih h
    · rename_i new
      refine ih (List.nodup_append.2 ⟨h, List.pairwise_singleton _ n, fun a mem b same => ?_⟩)
      rw [List.mem_singleton.1 same]
      rintro rfl
      exact new mem

theorem mem_mergeNames {x : ν} (ns : List ν) (q : List (Notice ν)) :
    x ∈ mergeNames ns q ↔ x ∈ ns ∨ x ∈ names q := by
  induction q generalizing ns with
  | nil => simp [mergeNames, names]
  | cons n q ih =>
    cases n with
    | changed more => rw [mergeNames, ih, mem_addNames, names, List.mem_append, or_assoc]
    | _ => exact ih ns

theorem nodup_mergeNames {ns : List ν} (h : ns.Nodup) (q : List (Notice ν)) :
    (mergeNames ns q).Nodup := by
  induction q generalizing ns with
  | nil => exact h
  | cons n q ih =>
    cases n with
    | changed more => exact ih (nodup_addNames h more)
    | _ => exact ih h

/-! ## Taking -/

/-- What is taken is an input that waits in front of all others, or a change in front of the queue,
with which all changes behind it are taken. -/
theorem next_cases {b b' : Inbox ν} {n : Notice ν} (calm : ∀ m ∈ b.pending, isChange m = false)
    (next : b.next = some (n, b')) :
    (isChange n = false ∧ b.waiting = n :: b'.waiting ∧ b'.pending ⊆ b.pending ∧
      b'.queue ⊆ b.queue ∧ names b'.queue = names b.queue) ∨
    ∃ ns q, b.pending = [] ∧ b.queue = .changed ns :: q ∧ n = .changed (mergeNames ns q) ∧
      b' = ⟨inputs q, []⟩ := by
  obtain ⟨pending, queue⟩ := b
  cases pending with
  | cons m pending =>
    have input : isChange m = false := calm m List.mem_cons_self
    have taken : n = m ∧ b' = ⟨pending, queue⟩ := by
      cases m <;> simp_all [Inbox.next, isChange]
    obtain ⟨rfl, rfl⟩ := taken
    exact .inl ⟨input, rfl, List.subset_cons_self .., List.Subset.refl _, rfl⟩
  | nil =>
    cases queue with
    | nil => cases next
    | cons m queue =>
      cases m with
      | changed ns =>
        cases next
        exact .inr ⟨ns, queue, rfl, rfl, rfl, by simp [inputs]⟩
      | _ =>
        cases next
        exact .inl ⟨rfl, rfl, List.Subset.refl _, List.subset_cons_self .., rfl⟩

/-! ## Runs -/

/-- What has been done with an inbox that was empty at first, the latest first, and the inbox that
this has led to. -/
inductive Run : List (Use ν) → Inbox ν → Prop where
  | nil : Run [] {}
  | send {past : List (Use ν)} {b : Inbox ν} (run : Run past b) {n : Notice ν}
      (single : n.IsSingle) : Run (.sent n :: past) (b.send n)
  | next {past : List (Use ν)} {b b' : Inbox ν} (run : Run past b) {n : Notice ν}
      (next : b.next = some (n, b')) : Run (.took n :: past) b'

/-- What waits in an inbox has been sent and not been taken. -/
structure Keeps (past : List (Use ν)) (b : Inbox ν) : Prop where
  /-- Changes do not wait behind those that were read ahead. -/
  calm : ∀ n ∈ b.pending, isChange n = false
  single : ∀ n ∈ b.queue, n.IsSingle
  inputs : inputs (allTaken past) ++ inputs b.waiting = inputs (allSent past)
  unreported : unreported past = names b.queue

theorem Run.keeps {past : List (Use ν)} {b : Inbox ν} (run : Run past b) : Keeps past b := by
  induction run with
  | nil => exact ⟨by simp, by simp, rfl, rfl⟩
  | @send past b _ n single ih =>
    refine ⟨ih.calm, fun m mem => ?_, ?_, ?_⟩
    · rcases List.mem_append.1 mem with mem | mem
      · exact ih.single m mem
      · rwa [List.mem_singleton.1 mem]
    · rw [waiting_send, inputs_append, ← List.append_assoc, allTaken, ih.inputs, allSent,
        inputs_append]
    · rw [Inbox.send, names_append, ← ih.unreported]
      cases n <;> simp [Use.unreported, names]
  | @next past b b' _ n next ih =>
    rcases next_cases ih.calm next with ⟨input, waiting, pending, queue, same⟩ |
      ⟨ns, q, pending, queue, rfl, rfl⟩
    · refine ⟨fun m mem => ih.calm m (pending mem), fun m mem => ih.single m (queue mem), ?_, ?_⟩
      · have kept := ih.inputs
        rw [waiting, ← List.singleton_append, inputs_append, inputs_of_not_isChange input] at kept
        rw [allTaken, inputs_append, inputs_of_not_isChange input, List.append_assoc]
        exact kept
      · rw [same, ← ih.unreported]
        cases n with
        | changed => cases input
        | _ => rfl
    · refine ⟨fun m mem => ?_, by simp, ?_, rfl⟩
      · simpa using (List.mem_filter.1 mem).2
      · have kept := ih.inputs
        rw [waiting, pending, queue] at kept
        rw [allTaken, allSent, ← kept]
        simp [waiting, inputs, isChange]

/-! ## What comes out -/

section

variable {past : List (Use ν)} {b b' : Inbox ν}

/-- Inputs come out as they were sent, and those that have not come out wait. -/
theorem Run.inputs_eq (run : Run past b) :
    inputs (allTaken past) ++ inputs b.waiting = inputs (allSent past) := run.keeps.inputs

/-- A change that comes out has each name that was sent since the last one, once. -/
theorem Run.next_changed (run : Run past b) {ns : List ν} (next : b.next = some (.changed ns, b')) :
    ns.Nodup ∧ ∀ x, x ∈ ns ↔ x ∈ unreported past := by
  have keeps := run.keeps
  rcases next_cases keeps.calm next with ⟨input, -⟩ | ⟨more, q, -, queue, same, -⟩
  · cases input
  · cases same
    obtain ⟨name, rfl⟩ : Notice.IsSingle (.changed more) :=
      keeps.single _ (by simp [queue])
    refine ⟨nodup_mergeNames (List.pairwise_singleton _ name) q, fun x => ?_⟩
    rw [mem_mergeNames, keeps.unreported, queue, names, List.mem_append]

/-- A change that was sent is reported by a change that has been taken since, or is to be reported
by the next one. -/
theorem Run.reported {later earlier : List (Use ν)} {ns : List ν} {x : ν} (mem : x ∈ ns)
    (run : Run (later ++ .sent (.changed ns) :: earlier) b) :
    (∃ ms, .took (.changed ms) ∈ later ∧ x ∈ ms) ∨
      x ∈ unreported (later ++ .sent (.changed ns) :: earlier) := by
  induction later generalizing b with
  | nil => exact .inr (List.mem_append_right _ mem)
  | cons u later ih =>
    cases run with
    | @send _ _ run n single =>
      rcases ih run with ⟨ms, known, reported⟩ | left
      · exact .inl ⟨ms, List.mem_cons_of_mem _ known, reported⟩
      · refine .inr ?_
        cases n with
        | changed => exact List.mem_append_left _ left
        | _ => exact left
    | @next _ _ _ run n next =>
      rcases ih run with ⟨ms, known, reported⟩ | left
      · exact .inl ⟨ms, List.mem_cons_of_mem _ known, reported⟩
      · cases n with
        | changed ms =>
          exact .inl ⟨ms, List.mem_cons_self, ((run.next_changed next).2 x).2 left⟩
        | _ => exact .inr left

/-- If nothing is left to be reported, all changes have been. -/
theorem Run.allReported (run : Run past b) (none : unreported past = []) : AllReported past := by
  rintro later earlier x rfl
  refine (run.reported (List.mem_singleton.2 rfl)).resolve_right fun left => ?_
  rw [none] at left
  cases left

/-- As soon as nothing waits, all that was sent has come out. -/
theorem Run.drained (run : Run past b) (next : b.next = none) :
    inputs (allTaken past) = inputs (allSent past) ∧ AllReported past := by
  have empty := next_eq_none_iff.1 next
  refine ⟨?_, run.allReported ?_⟩
  · rw [← run.inputs_eq, empty]
    exact (List.append_nil _).symm
  · rw [run.keeps.unreported, (List.append_eq_nil_iff.1 empty).2]
    rfl

end

end

end Inbox

end OfflineSchedule.Watch
