import OfflineSchedule.Proofs.Watch.Inbox
import OfflineSchedule.Watch.Session
/-!
# The lines that a session executes

A session takes what its inbox gives out, one notice after the other, while lines are typed,
resources change and tasks go on, all at any time. It ends with the first notice that says so: a
line that quits, or the end of the input. So what it executes is what was typed before
(`Listens.executed`), and the session of the program is no exception
(`Heard.calm`).
-/

namespace OfflineSchedule.Watch

open Inbox (inputs isChange)
open Time (Instant)
open Turns (Server)
open Use (AllReported allSent allTaken unreported)

/-- Whether a session that takes the notice ends. -/
def Notice.ends {ν : Type} : Notice ν → Bool
  | .line text =>
    match Action.ofLine text with
    | .ok .quit => true
    | _ => false
  | .closed => true
  | .changed _ => false

namespace Session

/-! ## What is left alone -/

/-- What was typed and what waits in the inbox stay, and so does the session. -/
structure Unheard (s s' : Session) : Prop where
  inbox : s'.inbox = s.inbox := by rfl
  typed : s'.typed = s.typed := by rfl
  isRunning : s'.isRunning = s.isRunning := by rfl

/-- A reaction takes nothing from the inbox. -/
theorem inbox_react (now : Instant) (n : Notice Resource) (s : Session) :
    (s.react now n).inbox = s.inbox := by
  cases n with
  | line text =>
    unfold react
    dsimp only
    split
    · rename_i a _
      cases a <;> rfl
    · rfl
    · rfl
  | _ => rfl

/-- A session goes on unless the notice ends it. -/
theorem isRunning_react (now : Instant) (n : Notice Resource) (s : Session) :
    (s.react now n).isRunning = (s.isRunning && !n.ends) := by
  cases n with
  | changed => exact (Bool.and_true _).symm
  | closed => exact (Bool.and_false _).symm
  | line text =>
    unfold Notice.ends react
    dsimp only
    cases Action.ofLine text with
    | error e => cases e <;> exact (Bool.and_true _).symm
    | ok a =>
      cases a with
      | quit => exact (Bool.and_false _).symm
      | _ => exact (Bool.and_true _).symm

end Session

/-! ## Runs -/

/-- What has been done with an inbox once some notices have been sent as well. -/
def Use.sends {ν : Type} (ns : List (Notice ν)) (past : List (Use ν)) : List (Use ν) :=
  (ns.map .sent).reverse ++ past

/-- The ways in which a session can go on: what has been done with its inbox, the latest first, and
the session that this has led to. -/
inductive Listens (start : Session) : List (Use Resource) → Session → Prop where
  | nil : Listens start [] start
  /-- The loop takes a notice and reacts to it. -/
  | take {past : List (Use Resource)} {s : Session} {n : Notice Resource} {inbox : Inbox Resource}
      (run : Listens start past s) (now : Instant) (running : s.isRunning = true)
      (free : s.isWaiting = false) (next : s.inbox.next = some (n, inbox)) :
      Listens start (.took n :: past) ({ s with inbox }.react now n)
  | type {past : List (Use Resource)} {s : Session} (run : Listens start past s)
      (bytes : List UInt8) : Listens start (Use.sends (s.typed.feed bytes).1 past) (s.type bytes)
  /-- The input ends. -/
  | close {past : List (Use Resource)} {s : Session} (run : Listens start past s) :
      Listens start (Use.sends s.typed.close.1 past) s.close
  /-- It is sent on that a resource has published a state. -/
  | change {past : List (Use Resource)} {s : Session} (run : Listens start past s)
      (r : Resource) : Listens start (Use.sends [.changed [r]] past) (s.send [.changed [r]])
  /-- Anything else: tasks go on, the server answers, time passes. -/
  | rest {past : List (Use Resource)} {s s' : Session} (run : Listens start past s)
      (unheard : s.Unheard s') : Listens start past s'

/-! ### The inbox -/

/-- What is typed are lines and the end of the input. -/
theorem Typed.isChange_of_mem_feed {n : Notice Resource} {bytes : List UInt8} {t : Typed}
    (mem : n ∈ (t.feed bytes).1) : isChange n = false := by
  induction bytes generalizing t with
  | nil => cases mem
  | cons b bytes ih =>
    unfold feed at mem
    split at mem
    · cases mem
    · split at mem
      · split at mem
        · rcases List.mem_cons.1 mem with rfl | mem
          · rfl
          · exact ih mem
        · rw [List.mem_singleton.1 mem]
          rfl
      · exact ih mem

theorem Typed.isChange_of_mem_close {n : Notice Resource} {t : Typed} (mem : n ∈ t.close.1) :
    isChange n = false := by
  unfold close at mem
  split at mem
  · cases mem
  · split at mem
    · rw [List.mem_singleton.1 mem]
      rfl
    · split at mem
      · rcases List.mem_cons.1 mem with rfl | mem
        · rfl
        · rw [List.mem_singleton.1 mem]
          rfl
      · rw [List.mem_singleton.1 mem]
        rfl

theorem Notice.isSingle_of_input {ν : Type} {n : Notice ν} (input : isChange n = false) :
    n.IsSingle := by
  cases n with
  | changed => cases input
  | _ => trivial

theorem Inbox.Run.sends {ν : Type} [DecidableEq ν] {past : List (Use ν)} {b : Inbox ν}
    (run : Inbox.Run past b) {ns : List (Notice ν)} (single : ∀ n ∈ ns, n.IsSingle) :
    Inbox.Run (Use.sends ns past) (ns.foldl (fun b n => b.send n) b) := by
  induction ns generalizing past b with
  | nil => exact run
  | cons n ns ih =>
    have rest := ih (run.send (single n List.mem_cons_self)) fun m mem =>
      single m (List.mem_cons_of_mem n mem)
    simpa [Use.sends] using rest

section

variable {start s : Session} {past : List (Use Resource)}

/-- What is done with the inbox of a session is a run of the inbox. -/
theorem Listens.inbox (empty : start.inbox = {}) (listens : Listens start past s) :
    Inbox.Run past s.inbox := by
  induction listens with
  | nil =>
    rw [empty]
    exact .nil
  | take _ now _ _ next ih =>
    rw [Session.inbox_react]
    exact ih.next next
  | type _ bytes ih =>
    exact ih.sends fun n mem => Notice.isSingle_of_input (Typed.isChange_of_mem_feed mem)
  | close _ ih =>
    exact ih.sends fun n mem => Notice.isSingle_of_input (Typed.isChange_of_mem_close mem)
  | change _ r ih =>
    refine ih.sends fun n mem => ?_
    rw [List.mem_singleton.1 mem]
    exact ⟨r, rfl⟩
  | rest _ unheard ih => rwa [unheard.inbox]

@[simp] theorem Use.allTaken_sends {ν : Type} (ns : List (Notice ν)) (past : List (Use ν)) :
    allTaken (Use.sends ns past) = allTaken past := by
  induction ns generalizing past with
  | nil => rfl
  | cons n ns ih => simpa [Use.sends, allTaken] using ih (.sent n :: past)

/-- A session runs as long as it has not taken a notice that ends it, and takes none afterwards. -/
theorem Listens.taken (running : start.isRunning = true) (listens : Listens start past s) :
    s.isRunning = true ∧ (∀ n ∈ inputs (allTaken past), n.ends = false) ∨
      s.isRunning = false ∧ ∃ ns n, inputs (allTaken past) = ns ++ [n] ∧ n.ends = true ∧
        ∀ m ∈ ns, m.ends = false := by
  induction listens with
  | nil => exact .inl ⟨running, nofun⟩
  | @take past s n inbox _ now goesOn _ _ ih =>
    obtain ⟨-, none⟩ : _ ∧ ∀ n ∈ inputs (allTaken past), n.ends = false :=
      ih.resolve_right fun ⟨ended, _⟩ => by simp [goesOn] at ended
    have after : (({ s with inbox } : Session).react now n).isRunning = !n.ends := by
      rw [Session.isRunning_react]
      simp [goesOn]
    rw [after, allTaken, Inbox.inputs_append]
    cases ends : n.ends with
    | false =>
      refine .inl ⟨rfl, fun m mem => ?_⟩
      rcases List.mem_append.1 mem with mem | mem
      · exact none m mem
      · rwa [List.mem_singleton.1 (List.mem_filter.1 mem).1]
    | true =>
      have input : isChange n = false := by
        cases n with
        | changed => cases ends
        | _ => rfl
      rw [Inbox.inputs_of_not_isChange input]
      exact .inr ⟨rfl, _, n, rfl, ends, none⟩
  | type _ bytes ih => rwa [Use.allTaken_sends]
  | close _ ih => rwa [Use.allTaken_sends]
  | change _ r ih => rwa [Use.allTaken_sends]
  | rest _ unheard ih => rwa [unheard.isRunning]

end

/-! ## Commands -/

/-- The line, unless it ends the session. -/
def Notice.command? {ν : Type} (n : Notice ν) : Option String :=
  match n with
  | .line text => if n.ends then none else some text
  | _ => none

/-- The lines that were typed before the first line that quits and before the end of the input. -/
def Use.commands {ν : Type} (past : List (Use ν)) : List String :=
  ((inputs (allSent past)).takeWhile (!·.ends)).filterMap Notice.command?

/-- The lines that were executed, other than one that quits. -/
def Use.executed {ν : Type} (past : List (Use ν)) : List String :=
  (allTaken past).filterMap Notice.command?

theorem Notice.command?_of_ends {ν : Type} {n : Notice ν} (ends : n.ends = true) :
    n.command? = none := by
  cases n with
  | line => exact if_pos ends
  | _ => rfl

theorem Use.executed_eq {ν : Type} (past : List (Use ν)) :
    executed past = (inputs (allTaken past)).filterMap Notice.command? := by
  rw [executed, inputs, List.filterMap_filter]
  congr 1
  funext n
  cases n <;> simp [isChange, Notice.command?]

section

variable {start s : Session} {past : List (Use Resource)}

/-- What is executed is what was typed before the session ends, as far as it has been taken. -/
theorem Listens.executed (empty : start.inbox = {}) (running : start.isRunning = true)
    (listens : Listens start past s) :
    Use.executed past <+: Use.commands past ∧
      (s.isRunning = false ∨ s.inbox.next = none → Use.executed past = Use.commands past) := by
  have inbox := listens.inbox empty
  rw [Use.executed_eq, Use.commands, ← inbox.inputs_eq]
  rcases listens.taken running with ⟨goesOn, none⟩ | ⟨-, ns, n, taken, ends, none⟩
  · have all : ∀ n ∈ inputs (allTaken past), (!n.ends) = true := fun n mem => by
      simp [none n mem]
    rw [List.takeWhile_append_of_pos all, List.filterMap_append]
    refine ⟨List.prefix_append .., fun atEnd => ?_⟩
    have waiting : s.inbox.waiting = [] :=
      Inbox.next_eq_none_iff.1 (atEnd.resolve_left (by simp [goesOn]))
    simp [waiting, inputs]
  · have all : ∀ m ∈ ns, (!m.ends) = true := fun m mem => by simp [none m mem]
    rw [taken, List.append_assoc, List.takeWhile_append_of_pos all, List.filterMap_append]
    simp [ends, Notice.command?_of_ends ends]

end

/-! ## Sessions of the program -/

/-- The session is what some run has led to. -/
def Heard (start s : Session) : Prop := ∃ past, Listens start past s

namespace Heard

variable {start s s' : Session}

theorem rest (heard : Heard start s) (unheard : s.Unheard s') : Heard start s' := by
  obtain ⟨past, listens⟩ := heard
  exact ⟨past, listens.rest unheard⟩

theorem type (heard : Heard start s) (bytes : List UInt8) : Heard start (s.type bytes) := by
  obtain ⟨past, listens⟩ := heard
  exact ⟨_, listens.type bytes⟩

theorem close (heard : Heard start s) : Heard start s.close := by
  obtain ⟨past, listens⟩ := heard
  exact ⟨_, listens.close⟩

theorem changes (heard : Heard start s) (rs : List (Channel Resource)) : Heard start
    { s with inbox := rs.foldl (fun b c => b.send (.changed [c.name])) s.inbox } := by
  induction rs generalizing s with
  | nil => exact heard
  | cons c rs ih =>
    obtain ⟨past, listens⟩ := heard
    exact ih ⟨_, listens.change c.name⟩

theorem settle (heard : Heard start s) : Heard start s.settle := by
  have unheard : s.Unheard { s.settle with inbox := s.inbox } := {}
  exact (heard.rest unheard).changes _

theorem loop (now : Instant) (fuel : Nat) (heard : Heard start s) :
    Heard start (s.loop now fuel) := by
  induction fuel generalizing s with
  | zero => exact heard
  | succ fuel ih =>
    unfold Session.loop
    split
    · exact heard
    · rename_i running
      split
      · split
        · refine ih (heard.rest ?_)
          unfold Session.continueReload
          dsimp only
          split <;> exact {}
        · exact heard
      · rename_i free
        split
        · exact heard
        · rename_i n inbox next
          obtain ⟨past, listens⟩ := heard
          exact ih ⟨_, listens.take now (by simpa using running) (by simpa using free) next⟩

/-- What the program comes to, however it goes on, is what a run comes to. -/
theorem calm (now : Instant) (fuel : Nat) (heard : Heard start s) :
    Heard start (s.calm now fuel) := by
  induction fuel generalizing s with
  | zero => exact heard
  | succ fuel ih =>
    unfold Session.calm
    dsimp only
    split
    · exact ih (heard.settle.loop now _)
    · exact heard.settle

end Heard

/-! ## In order, each once -/

/-- **Notices come out once and in order.** Whenever notices are sent to an inbox and taken out of
it, the lines and the end of the input are taken as they were sent; a change that is taken has the
names of the changes that were sent since the last one, each once, so that all changes have been
reported by then; and an inbox that gives nothing has nothing left of what it was sent. Therefore a
session executes what was typed before the first line that quits and before the end of the input,
each line once and in order: all of it when the session has ended or has nothing left to take. -/
theorem notices_come_out_once_in_order :
    (∀ {ν : Type} [DecidableEq ν] {past : List (Use ν)} {b : Inbox ν}, Inbox.Run past b →
      inputs (allTaken past) <+: inputs (allSent past) ∧
      (∀ ns b', b.next = some (.changed ns, b') →
        ns.Nodup ∧ (∀ x, x ∈ ns ↔ x ∈ unreported past) ∧
        AllReported (.took (.changed ns) :: past)) ∧
      (b.next = none → inputs (allTaken past) = inputs (allSent past) ∧ AllReported past)) ∧
    ∀ {policy : Retry.Policy} {hasAnnouncements : Bool} {store : Store} {server : Server}
      {con : String} {past : List (Use Resource)} {s : Session},
      Listens (.start policy hasAnnouncements store server con) past s →
      Use.executed past <+: Use.commands past ∧
      (s.isRunning = false ∨ s.inbox.next = none → Use.executed past = Use.commands past) := by
  refine ⟨fun {ν _ past b} run => ⟨?_, fun ns b' next => ?_, run.drained⟩, fun listens => ?_⟩
  · rw [← run.inputs_eq]
    exact List.prefix_append ..
  · obtain ⟨once, names⟩ := run.next_changed next
    exact ⟨once, names, (run.next next).allReported rfl⟩
  · exact listens.executed rfl rfl

/-- Two resources change while a line is typed, and one of them once more; the user asks for the
status, quits and types on. -/
theorem status_is_executed_before_quit :
    (∃ past b b', Inbox.Run past b ∧
      b.next = some (.changed [Resource.events, Resource.info], b') ∧
      b'.next = some (.line "status", {}) ∧
      AllReported (.took (.changed [Resource.events, Resource.info]) :: past)) ∧
    ∃ past s, Listens (.start .standard true { kind := .database } (.scripted {}) "a") past s ∧
      s.isRunning = false ∧ Use.commands past = ["status"] ∧
      Use.executed past = Use.commands past := by
  constructor
  · have run : Inbox.Run [] ({} : Inbox Resource) := .nil
    have run := run.send (n := .changed [.events]) ⟨_, rfl⟩
    have run := run.send (n := .line "status") trivial
    have run := run.send (n := .changed [.info]) ⟨_, rfl⟩
    have run := run.send (n := .changed [.events]) ⟨_, rfl⟩
    exact ⟨_, _, _, run, rfl, rfl, ((notices_come_out_once_in_order.1 run).2.1 _ _ rfl).2.2⟩
  · let start : Session := .start .standard true { kind := .database } (.scripted {}) "a"
    have listens : Listens start [] start := .nil
    have listens := listens.type "status\nquit\nclear\n".toUTF8.toList
    have listens := listens.take ⟨0, 0⟩ rfl rfl
      (show _ = some (.line "status", { queue := [.line "quit", .line "clear"] }) by
        decide +kernel)
    have listens := listens.take ⟨0, 0⟩ (by decide +kernel) (by decide +kernel)
      (show _ = some (.line "quit", { queue := [.line "clear"] }) by decide +kernel)
    refine ⟨_, _, listens, by decide +kernel, by decide +kernel, ?_⟩
    exact (notices_come_out_once_in_order.2 listens).2 (.inl (by decide +kernel))

end OfflineSchedule.Watch
