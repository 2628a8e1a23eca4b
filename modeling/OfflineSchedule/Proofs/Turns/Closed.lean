import OfflineSchedule.Proofs.Turns.Turn
/-!
# What turns preserve

All that tasks do to a world comes down to two things: moves, and housekeeping that concerns tasks,
alarms, requests and the like (`Quiet`). A property that survives both survives the turns of all
tasks (`Closed.turn`) and the time in between (`Closed.tick?`), whatever it is about. The moves in
question may be narrowed down to those that activate certain cons, if tasks begin with no others.
-/

namespace OfflineSchedule.Sync

/-- The move activates none but certain cons. -/
def Move.IsWithin (cons : String → Prop) (m : Move) : Prop :=
  ∀ con, m.activated? = some con → cons con

theorem Move.IsWithin.of_inactive {cons : String → Prop} {m : Move}
    (inactive : m.activated? = none) : m.IsWithin cons := by
  intro con activated
  rw [inactive] at activated
  cases activated

theorem Move.IsWithin.event {cons : String → Prop} {m : Move} (h : m.IsWithin cons)
    (faults : List StoreOperation) :
    ∀ con, (Event.move m faults).activated? = some con → cons con := h

end OfflineSchedule.Sync

namespace OfflineSchedule.Turns

open Retry (Moment)
open Sync (Move Progress)

/-- Whatever the task begins with activates none but certain cons. -/
def Task.BeginsWithin (cons : String → Prop) (t : Task) : Prop :=
  ∀ r m, t.strand? r = some (.fresh m) → m.IsWithin cons

theorem Task.IsPassive.beginsWithin {t : Task} (h : t.IsPassive) (cons : String → Prop) :
    t.BeginsWithin cons := fun r m fresh => .of_inactive (h.inactive r m fresh)

namespace World

variable {free : TaskId → Prop} {cons : String → Prop} {P : World → Prop} {w w' : World}
  {id : TaskId}

/-! ## Housekeeping -/

/-- Nothing is published, and all tasks but those that are free stay as they are. What is on a
channel may be seen, but stays there. -/
structure Quiet (free : TaskId → Prop) (w w' : World) : Prop where
  policy : w'.policy = w.policy := by rfl
  hasAnnouncements : w'.hasAnnouncements = w.hasAnnouncements := by rfl
  sessions : w'.sessions = w.sessions := by rfl
  news : w'.news = w.news := by rfl
  channels : ∀ number, (w'.channel? number).map (·.con) = (w.channel? number).map (·.con) := by
    exact fun _ => rfl
  tasks : ∀ id, ¬free id → w'.task? id = w.task? id := by exact fun _ _ => rfl

theorem task?_dropTask_of_ne {id' : TaskId} (other : id' ≠ id) (w : World) :
    (w.dropTask id).task? id' = w.task? id' := by
  simp only [task?, dropTask, List.find?_filter]
  congr 2
  funext p
  by_cases h : p.1 = id' <;> simp [h, other]

theorem task?_setTask_self (id : TaskId) (t : Task) (w : World) :
    (w.setTask id t).task? id = some t := by
  simp [task?, setTask]

theorem task?_setTask_of_ne {id' : TaskId} (other : id' ≠ id) (t : Task) (w : World) :
    (w.setTask id t).task? id' = w.task? id' := by
  rw [← task?_dropTask_of_ne other w]
  simp [task?, setTask, Ne.symm other]

theorem channel?_setChannel_of_ne {number number' : Nat} (other : number' ≠ number) (c : Channel)
    (w : World) : (w.setChannel number c).channel? number' = w.channel? number' := by
  simp only [channel?, setChannel, List.find?_cons_of_neg, decide_eq_true_eq, Ne.symm other,
    not_false_iff, List.find?_filter]
  congr 2
  funext p
  by_cases h : p.1 = number' <;> simp [h, other]

namespace Quiet

theorem ne_of_free {id' : TaskId} (isFree : free id) (other : ¬free id') : id' ≠ id := by
  rintro rfl
  exact other isFree

theorem dropTask (isFree : free id) (w : World) : Quiet free w (w.dropTask id) :=
  { tasks := fun _ other => task?_dropTask_of_ne (ne_of_free isFree other) w }

theorem setTask (isFree : free id) (t : Task) (w : World) : Quiet free w (w.setTask id t) :=
  { tasks := fun _ other => task?_setTask_of_ne (ne_of_free isFree other) t w }

theorem wake (id : TaskId) (w : World) : Quiet free w (w.wake id) := by
  unfold World.wake
  split
  · exact {}
  · split <;> exact {}

theorem dropTimers (timers : ∀ session r number, free (.timer session r number)) (session : Nat)
    (r : Resource) (w : World) : Quiet free w (w.dropTimers session r) := by
  refine { tasks := fun id other => ?_ }
  simp only [task?, World.dropTimers, List.find?_filter]
  congr 2
  funext p
  by_cases h : p.1 = id
  · cases id with
    | timer session r number => exact absurd (timers session r number) other
    | _ => simp [h, isTimerOf]
  · simp [h]

/-- What is put on a channel is the con that is there. -/
theorem setChannel {number : Nat} {c : Channel}
    (same : (w.channel? number).map (·.con) = some c.con) :
    Quiet free w (w.setChannel number c) := by
  refine { channels := fun number' => ?_ }
  by_cases here : number' = number
  · subst here
    rw [channel?_setChannel, same]
    rfl
  · rw [channel?_setChannel_of_ne here]

end Quiet

/-! ## Moves and housekeeping -/

/-- A property that survives moves, those that activate other than certain cons apart, and
housekeeping. -/
structure Closed (free : TaskId → Prop) (cons : String → Prop) (P : World → Prop) : Prop where
  timers : ∀ session r number, free (.timer session r number)
  revalidations : ∀ session r ticket, free (.revalidation session r ticket)
  quiet : ∀ {w w' : World}, Quiet free w w' → P w → P w'
  make : ∀ {w : World} (session : Nat) (r : Resource) {m : Move}, m.IsWithin cons → P w →
    P (w.make session r m).2
  /-- No other cons are on channels. -/
  channels : ∀ {w : World} {number : Nat} {c : Channel}, P w → w.channel? number = some c →
    cons c.con

namespace Closed

variable (closed : Closed free cons P)
include closed

theorem dropTask (isFree : free id) (hw : P w) : P (w.dropTask id) :=
  closed.quiet (.dropTask isFree w) hw

theorem setTask (isFree : free id) (t : Task) (hw : P w) : P (w.setTask id t) :=
  closed.quiet (.setTask isFree t w) hw

theorem wake (id : TaskId) (hw : P w) : P (w.wake id) := closed.quiet (.wake id w) hw

theorem spawn (isFree : free id) (t : Task) (hw : P w) : P (w.spawn id t) :=
  closed.wake id (closed.setTask isFree t hw)

theorem startTasks (session : Nat) (r : Resource) (p : Progress) (hw : P w) :
    P (w.startTasks session r p) := by
  unfold World.startTasks
  split
  · exact closed.spawn (closed.revalidations ..) _ hw
  · exact closed.spawn (closed.revalidations ..) _ hw
  · split
    · have numbered : Quiet free w { w.dropTimers session r with timers := w.timers + 1 } :=
        { Quiet.dropTimers closed.timers session r w with }
      exact closed.spawn (closed.timers ..) _ (closed.quiet numbered hw)
    · exact hw
  · exact hw

theorem act (session : Nat) (r : Resource) {m : Move} (within : m.IsWithin cons) (hw : P w) :
    P (w.act session r m).2 := by
  have made := closed.make session r within hw
  have stopped : P ((w.make session r m).2.stopTimers session r) := by
    unfold stopTimers
    split
    · exact made
    · exact closed.quiet (.dropTimers closed.timers session r _) made
  exact closed.startTasks session r _ stopped

theorem act_inactive (session : Nat) (r : Resource) {m : Move} (inactive : m.activated? = none)
    (hw : P w) : P (w.act session r m).2 := closed.act session r (.of_inactive inactive) hw

theorem release (session : Nat) (r : Resource) (hw : P w) : P (w.release session r) := by
  unfold World.release
  split
  · exact hw
  · exact closed.act_inactive session r rfl hw

theorem releaseAll (session : Nat) (hw : P w) : P (w.releaseAll session) :=
  List.foldlRecOn _ _ hw fun _ hw r _ => closed.release session r hw

/-! ### Strands -/

theorem proceed (id : TaskId) (session : Nat) (r : Resource) (requests : Nat) (p : Progress)
    (hw : P w) : P (proceed id session r requests p w).2 := by
  induction requests generalizing p w with
  | zero => cases p <;> exact hw
  | succ requests ih =>
    cases p with
    | sent ticket g =>
      unfold World.proceed
      dsimp only
      have called : ∀ calls server kept, P { w with calls, server, kept } :=
        fun _ _ _ => closed.quiet {} hw
      split
      · exact called ..
      · split
        · exact ih _ (closed.act_inactive session r rfl (called ..))
        · exact closed.quiet {} hw
    | _ => exact hw

theorem move (id : TaskId) (session : Nat) (r : Resource) {m : Move} (within : m.IsWithin cons)
    (hw : P w) : P (w.move id session r m).2 :=
  closed.proceed id session r _ _ (closed.act session r within hw)

theorem runStrand (id : TaskId) (session : Nat) (r : Resource) {s : Strand}
    (begins : ∀ m, s = .fresh m → m.IsWithin cons) (hw : P w) :
    P (w.runStrand id session r s).2 := by
  unfold World.runStrand
  split
  · rename_i m
    exact closed.move id session r (begins m rfl) hw
  · split
    · exact closed.move id session r (.of_inactive rfl) hw
    · exact hw
  · split <;> exact hw
  · exact hw

theorem runStrands (id : TaskId) (rs : List Resource) {t : Task} (begins : t.BeginsWithin cons)
    (hw : P w) : P (w.runStrands id rs t).2 := by
  induction rs generalizing t w with
  | nil => exact hw
  | cons r rs ih =>
    unfold World.runStrands
    split
    · rename_i s known
      refine ih (fun r' m fresh => ?_) (closed.runStrand id t.session r (fun m fresh => ?_) hw)
      · exact begins r' m (Task.fresh_of_setStrand (begun_runStrand id _ r s w) fresh).2
      · exact begins r m (known.trans (congrArg some fresh))
    · exact ih begins hw

theorem runTask (id : TaskId) {t : Task} (begins : t.BeginsWithin cons) (hw : P w) :
    P (w.runTask id t).2 := closed.runStrands id t.order begins hw

/-! ### Tasks -/

theorem finish (isFree : free id) (t : Task) (results : List (Resource × Progress)) (hw : P w) :
    P (w.finish id t results) := by
  have noted : P { w.dropTask id with results := (id, results) :: w.results } :=
    closed.quiet { Quiet.dropTask isFree w with } hw
  refine closed.releaseAll t.session ?_
  unfold wakeJoined
  split
  · exact List.foldlRecOn _ _ noted fun _ hw id' _ => closed.wake id' hw
  · exact noted

theorem runCall (isFree : free id) {t : Task} (begins : t.BeginsWithin cons) (hw : P w) :
    P (w.runCall id t) := by
  have ran := closed.runTask id begins hw
  unfold World.runCall
  dsimp only
  split
  · exact closed.finish isFree _ _ ran
  · exact closed.setTask isFree _ ran

theorem runTimer (isFree : free id) (session : Nat) (r : Resource) (t : Task) (hw : P w) :
    P (w.runTimer id session r t) := by
  unfold World.runTimer
  split
  · exact closed.dropTask isFree hw
  · split
    · exact closed.wake _ (closed.dropTask isFree (closed.act_inactive session r rfl hw))
    · refine closed.setTask isFree _ ?_
      split
      · exact closed.quiet {} hw
      · exact hw

theorem runTriggers (isFree : free id) (session : Nat) (r : Resource) (triggers : Nat)
    (hw : P w) : P (w.runTriggers id session r triggers) := by
  induction triggers generalizing w with
  | zero => exact hw
  | succ triggers ih =>
    have moved := closed.move id session r (m := .retry) (.of_inactive rfl)
      (closed.setTask isFree { session, strands := [(r, .fresh .retry)] } hw)
    unfold World.runTriggers
    split
    · exact hw
    · dsimp only
      split
      · exact ih (closed.release session r (closed.dropTask isFree moved))
      · exact closed.setTask isFree _ moved

theorem runRetries (isFree : free id) (session : Nat) (r : Resource)
    (begins : ∀ t, w.task? id = some t → t.BeginsWithin cons) (hw : P w) :
    P (w.runRetries id session r) := by
  have begins : ((w.task? id).getD { session }).BeginsWithin cons := by
    cases known : w.task? id with
    | none => exact fun _ _ fresh => nomatch fresh
    | some t => exact begins t known
  have ran := closed.runTask id begins hw
  unfold World.runRetries
  dsimp only
  split
  · have dropped := closed.dropTask isFree ran
    exact closed.runTriggers isFree session r _ (closed.release session r dropped)
  · exact closed.setTask isFree _ ran

theorem runFollower (isFree : free id) (number looks : Nat) {t : Task}
    (begins : t.BeginsWithin cons) (hw : P w) : P (w.runFollower id number looks t) := by
  induction looks generalizing t w with
  | zero => exact closed.setTask isFree t hw
  | succ looks ih =>
    have ran := closed.runTask id begins hw
    unfold World.runFollower
    dsimp only
    split
    · exact closed.setTask isFree _ ran
    · exact closed.dropTask isFree ran
    · rename_i c _ channel
      split
      · have looked : P ((w.runTask id t).2.setChannel number { c with isNew := false }) := by
          refine closed.quiet (.setChannel ?_) ran
          rw [channel]
          rfl
        refine ih (fun r m fresh => ?_) looked
        rw [Task.strand?_strands] at fresh
        obtain ⟨-, same⟩ := Option.ite_none_right_eq_some.1 fresh
        cases same
        intro con activated
        cases activated
        exact closed.channels ran channel
      · split
        · exact closed.setTask isFree _ ran
        · exact closed.releaseAll _ (closed.dropTask isFree ran)

/-- Whichever task has its turn, if it is free and begins with no other cons. -/
theorem turn (isFree : free id) (begins : ∀ t, w.task? id = some t → t.BeginsWithin cons)
    (hw : P w) : P (w.turn id) := by
  unfold World.turn
  split
  · exact closed.runRetries isFree _ _ begins hw
  · exact hw
  · exact closed.runTimer isFree _ _ _ hw
  · rename_i known
    exact closed.runFollower isFree _ _ (begins _ known) hw
  · rename_i known
    exact closed.runCall isFree (begins _ known) hw

/-- A task is given up. -/
theorem abandon (isFree : free id) (hw : P w) : P (w.abandon id) := by
  unfold World.abandon
  split
  · exact hw
  · rename_i t _
    refine closed.releaseAll t.session ?_
    refine List.foldlRecOn _ _ (closed.dropTask isFree hw) fun w hw p _ => ?_
    split
    · exact closed.act_inactive _ _ rfl hw
    · exact hw

/-- Time passes. -/
theorem tick? (hw : P w) (ticked : w.tick? = some w') : P w' := by
  unfold World.tick? at ticked
  dsimp only at ticked
  split at ticked
  · cases ticked
  · cases ticked
    exact List.foldlRecOn _ _ (closed.quiet {} hw) fun _ hw alarm _ => closed.wake alarm.2 hw

end Closed

end World

end OfflineSchedule.Turns
