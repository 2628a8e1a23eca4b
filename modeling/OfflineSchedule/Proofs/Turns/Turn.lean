import OfflineSchedule.Proofs.Turns.Strand
/-!
# Turns are made of steps

In a regular world a turn of any task is a chain of steps as runs have them, at the end of which the
follower has nothing left to do: it takes up a con and activates it for all resources in the same
turn. So whatever a world comes to, in whatever order the tasks take their turns, is what a run
comes to.
-/

namespace OfflineSchedule.Turns.World

open Convention (Deed)
open Sync (Move Progress)

variable {w w' : World} {id : TaskId}

/-! ## Turns -/

/-- A regular world becomes another one in some steps in which the follower has no part. -/
def Keeps (w w' : World) : Prop :=
  w.IsRegular → w'.IsRegular ∧ w'.channels = w.channels ∧ ∀ f, ∃ past, Run (w, f) past (w', f)

namespace Keeps

variable {w'' : World}

theorem refl : Keeps w w := fun h => ⟨h, rfl, fun _ => ⟨[], .refl⟩⟩

theorem trans (h : Keeps w w') (h' : Keeps w' w'') : Keeps w w'' := by
  intro regular
  obtain ⟨regular', same, run⟩ := h regular
  obtain ⟨regular'', same', run'⟩ := h' regular'
  refine ⟨regular'', same'.trans same, fun f => ?_⟩
  obtain ⟨past, first⟩ := run f
  obtain ⟨later, second⟩ := run' f
  exact ⟨later ++ past, first.trans second⟩

/-- Only what regular worlds become counts. -/
theorem of_regular (h : w.IsRegular → Keeps w w') : Keeps w w' := fun regular => h regular regular

theorem of_goes (h : ∀ f, Goes (w, f) (w', f)) : Keeps w w' := by
  intro regular
  obtain ⟨regular', channels, -⟩ := h {} regular
  exact ⟨regular', channels, fun f => (h f regular).2.2⟩

theorem within (within : w.Within w') : Keeps w w' := of_goes fun _ => .within within

theorem act (r : Resource) {m : Move} (inactive : m.activated? = none) :
    Keeps w (w.act 0 r m).2 := of_goes fun _ => .act r inactive

theorem setTask (first : id.IsFirst) {t : Task} (passive : t.IsPassive) :
    Keeps w (w.setTask id t) := of_goes fun _ => .setTask first passive

theorem dropTask (id : TaskId) : Keeps w (w.dropTask id) := within (within_dropTask id w)

theorem wake (first : id.IsFirst) : Keeps w (w.wake id) := of_goes fun _ => .wake first

theorem spawn (first : id.IsFirst) {t : Task} (passive : t.IsPassive) : Keeps w (w.spawn id t) :=
  (setTask first passive).trans (wake first)

theorem foldl {α : Type} {g : World → α → World} (h : ∀ w a, Keeps w (g w a)) {l : List α} :
    Keeps w (l.foldl g w) := by
  induction l generalizing w with
  | nil => exact refl
  | cons a l ih => exact (h w a).trans ih

end Keeps

/-- In a world with one session everything is held by that session. -/
theorem releaseAll_of_one (one : w.sessions.length = 1) : w.releaseAll 0 = w := by
  have held : ∀ r, w.release 0 r = w := by
    intro r
    simp [release, isHeld, current, one]
  simp [releaseAll, Resource.all, held]

theorem release_of_one (one : w.sessions.length = 1) (r : Resource) : w.release 0 r = w := by
  simp [release, isHeld, current, one]

theorem Keeps.releaseAll (h : Keeps w w') : Keeps w (w'.releaseAll 0) := by
  refine .of_regular fun regular => ?_
  rwa [releaseAll_of_one (h regular).1.one]

theorem keeps_runTask (first : id.IsFirst) {t : Task} (passive : t.IsPassive) (w : World) :
    Keeps w (w.runTask id t).2 := by
  refine .of_goes fun f => ?_
  obtain ⟨f', goes, does⟩ := goes_runTask first passive.fits w
  rwa [does.idle fun r _ => passive.not_activates r] at goes

theorem keeps_finish (first : id.IsFirst) {t : Task} (passive : t.IsPassive)
    (results : List (Resource × Progress)) (w : World) : Keeps w (w.finish id t results) := by
  have noted : Keeps w { w.dropTask id with results := (id, results) :: w.results } :=
    .within { within_dropTask id w with }
  have woken : ∀ w : World, Keeps w (w.wakeJoined id) := by
    intro w
    unfold wakeJoined
    split
    · refine .of_regular fun h => .of_goes fun f => .wakeEach fun id' mem => ?_
      obtain ⟨p, hp, rfl⟩ := List.mem_map.1 mem
      exact (h.tasks p (List.mem_filter.1 hp).1).1
    · exact .refl
  rw [finish, passive.session]
  exact (noted.trans (woken _)).releaseAll

theorem keeps_runCall (first : id.IsFirst) {t : Task} (passive : t.IsPassive) (w : World) :
    Keeps w (w.runCall id t) := by
  have ran := keeps_runTask first passive w
  have passive' := isPassive_runTask id passive.session w
  unfold runCall
  generalize w.runTask id t = result at *
  obtain ⟨t', w'⟩ := result
  dsimp only
  split
  · exact ran.trans (keeps_finish first passive' _ w')
  · exact ran.trans (.setTask first passive')

theorem keeps_runTimer (first : id.IsFirst) (r : Resource) {t : Task} (passive : t.IsPassive)
    (w : World) : Keeps w (w.runTimer id 0 r t) := by
  have again : Task.IsPassive { t with turns := t.turns + 1 } := ⟨passive.session, passive.inactive⟩
  unfold runTimer
  split
  · exact .dropTask id
  · split
    · have retries : TaskId.IsFirst (.retries 0 r) := rfl
      exact ((Keeps.act r rfl).trans (.dropTask id)).trans (.wake retries)
    · rename_i due _ _
      have alarm : Keeps w (w.setAlarm due id) := .of_goes fun _ => .setAlarm first due
      split
      · exact alarm.trans (.setTask first again)
      · exact .setTask first again

theorem keeps_move (first : id.IsFirst) (r : Resource) {m : Move} (inactive : m.activated? = none)
    (w : World) : Keeps w (w.move id 0 r m).2 := .of_goes fun f => goes_move first r inactive f w

theorem keeps_runTriggers (first : id.IsFirst) (r : Resource) (triggers : Nat) (w : World) :
    Keeps w (w.runTriggers id 0 r triggers) := by
  induction triggers generalizing w with
  | zero => exact .refl
  | succ triggers ih =>
    refine .of_regular fun h => ?_
    have held : w.isHeld 0 r = true := by simp [isHeld, current, h.one]
    have retry : Task.IsPassive { session := 0, strands := [(r, .fresh .retry)] } :=
      .single fun m fresh => by cases fresh; rfl
    have begun : Keeps w (w.setTask id { session := 0, strands := [(r, .fresh .retry)] }) :=
      .setTask first retry
    have moved := begun.trans (keeps_move first r (m := .retry) rfl _)
    have under_way := begun_runStrand id 0 r (.fresh .retry)
      (w.setTask id { session := 0, strands := [(r, .fresh .retry)] })
    rw [runStrand] at under_way
    unfold runTriggers
    rw [held, if_neg (by simp)]
    generalize World.move id 0 r .retry _ = result at *
    obtain ⟨s, w'⟩ := result
    have dropped := moved.trans (.dropTask id)
    cases s with
    | finished p =>
      have rest := dropped.trans (ih _)
      rw [← release_of_one (dropped h).1.one r] at rest
      exact rest
    | _ => exact moved.trans (.setTask first (.single fun m fresh => absurd fresh (under_way m)))

theorem keeps_runRetries (first : id.IsFirst) (r : Resource) (w : World) :
    Keeps w (w.runRetries id 0 r) := by
  refine .of_regular fun h => ?_
  have passive : ((w.task? id).getD { session := 0 }).IsPassive := by
    cases known : w.task? id with
    | none => exact .idle
    | some t => exact h.task known
  have ran := keeps_runTask first passive w
  have passive' := isPassive_runTask id passive.session w
  unfold runRetries
  generalize w.runTask id ((w.task? id).getD { session := 0 }) = result at *
  obtain ⟨t', w'⟩ := result
  dsimp only
  split
  · have dropped := ran.trans (.dropTask id)
    rw [release_of_one (dropped h).1.one]
    exact dropped.trans (keeps_runTriggers first r _ _)
  · exact ran.trans (.setTask first passive')

/-! ### The follower -/

/-- After its strands have had their turns, the follower stops or takes up the next con. -/
theorem runFollower_cases (looks : Nat) {t t₁ : Task} {w₁ : World} (passive : t₁.IsPassive)
    (ran : w.runTask (.follower 0) t = (t₁, w₁)) :
    Keeps w₁ (w.runFollower (.follower 0) 0 (looks + 1) t) ∨
    ∃ c, w₁.channel? 0 = some c ∧ c.isNew = true ∧
      w.runFollower (.follower 0) 0 (looks + 1) t =
        (w₁.setChannel 0 { c with isNew := false }).runFollower (.follower 0) 0 looks
          { session := 0, strands := strands (w₁.convention 0).resources (.activate c.con) } := by
  have first : TaskId.IsFirst (.follower 0) := rfl
  rw [runFollower, ran]
  dsimp only
  rw [passive.session]
  split
  · exact .inl (.setTask first passive)
  · exact .inl (.dropTask _)
  · rename_i _ c _ channel
    split
    · rename_i isNew
      exact .inr ⟨c, channel, isNew, rfl⟩
    · left
      split
      · exact .setTask first .idle
      · exact (Keeps.dropTask _).releaseAll

/-- The con on the first channel. -/
def selection? (w : World) : Option String := (w.channel? 0).map (·.con)

theorem selection?_congr (h : w'.channels = w.channels) : w'.selection? = w.selection? := by
  rw [selection?, selection?, channel?_congr h]

/-- Some steps after which the follower has nothing to do, and the con on the channel is the one
that it was. -/
def Ends (x : World × Following) (w' : World) : Prop :=
  w'.IsRegular ∧ w'.selection? = x.1.selection? ∧ ∃ f' past, f'.todo = [] ∧ Run x past (w', f')

theorem Keeps.ends (h : Keeps w w') (regular : w.IsRegular) {f : Following} (idle : f.todo = []) :
    Ends (w, f) w' := by
  obtain ⟨regular', channels, run⟩ := h regular
  obtain ⟨past, run⟩ := run f
  exact ⟨regular', selection?_congr channels, f, past, idle, run⟩

theorem Ends.cons {x y : World × Following} {past : List Deed} (ends : Ends y w')
    (same : y.1.selection? = x.1.selection?) (run : Run x past y) : Ends x w' := by
  obtain ⟨regular, same', f', later, idle, run'⟩ := ends
  exact ⟨regular, same'.trans same, f', later ++ past, idle, run.trans run'⟩

/-- When the strands for what the follower has still to do have had their turns, it has begun with
all of that. -/
theorem run_activations (regular : w.IsRegular) {t : Task} {f : Following} (fits : t.Fits f)
    (fresh : ∀ r ∈ f.todo, t.Activates r) :
    ∃ t₁ w₁, w.runTask (.follower 0) t = (t₁, w₁) ∧ t₁.IsPassive ∧ w₁.IsRegular ∧
      w₁.channels = w.channels ∧ ∃ f₁ past, f₁.todo = [] ∧ Run (w, f) past (w₁, f₁) := by
  have first : TaskId.IsFirst (.follower 0) := rfl
  have passive := isPassive_runTask (.follower 0) fits.session w
  obtain ⟨f₁, goes, does⟩ := goes_runTask first fits w
  obtain ⟨regular₁, channels, past, run⟩ := goes regular
  have idle : f₁.todo = [] := by
    refine List.eq_nil_iff_forall_not_mem.2 fun r todo => ?_
    exact does.done r (mem_order t r) (fresh r (does.less r todo)) todo
  exact ⟨_, _, rfl, passive, regular₁, channels, f₁, past, idle, run⟩

/-- The follower takes up the con on the channel, and begins a task that activates it. -/
theorem begun_look {c : Channel} (regular : w.IsRegular) (channel : w.channel? 0 = some c) :
    let w' := w.setChannel 0 { c with isNew := false }
    let f : Following := ⟨some c.con, (w.convention 0).resources⟩
    let t : Task :=
      { session := 0, strands := strands (w.convention 0).resources (.activate c.con) }
    w'.IsRegular ∧ w'.selection? = w.selection? ∧ t.Fits f ∧ ∀ r ∈ f.todo, t.Activates r := by
  refine ⟨regular.setChannel 0 _, ?_, ⟨rfl, ?_⟩, ?_⟩
  · rw [selection?, selection?, channel?_setChannel, channel]
    rfl
  · intro r m fresh
    rw [Task.strand?_strands] at fresh
    obtain ⟨todo, same⟩ := Option.ite_none_right_eq_some.1 fresh
    cases same
    exact .inr ⟨c.con, rfl, rfl, todo⟩
  · intro r todo
    exact ⟨c.con, by rw [Task.strand?_strands, if_pos todo]⟩

/-- When the follower has had its turn it has nothing left to do. Once it has looked it does not
find another new con in the same turn. -/
theorem ends_runFollower (looks : Nat) {t : Task} {f : Following} {w : World}
    (regular : w.IsRegular) (fits : t.Fits f) (fresh : ∀ r ∈ f.todo, t.Activates r)
    (seen : looks = 0 → ∀ c, w.channel? 0 = some c → c.isNew = false) :
    Ends (w, f) (w.runFollower (.follower 0) 0 (looks + 1) t) := by
  induction looks generalizing t f w with
  | zero =>
    obtain ⟨t₁, w₁, ran, passive, regular₁, channels, f₁, past, idle, run⟩ :=
      run_activations regular fits fresh
    rcases runFollower_cases 0 passive ran with stops | ⟨c, known, isNew, -⟩
    · exact (stops.ends regular₁ idle).cons (selection?_congr channels) run
    · -- The last look is one at a con that the follower has just taken up.
      rw [channel?_congr channels] at known
      rw [seen rfl c known] at isNew
      cases isNew
  | succ looks ih =>
    obtain ⟨t₁, w₁, ran, passive, regular₁, channels, f₁, past, idle, run⟩ :=
      run_activations regular fits fresh
    rcases runFollower_cases (looks + 1) passive ran with stops | ⟨c, known, -, next⟩
    · exact (stops.ends regular₁ idle).cons (selection?_congr channels) run
    · rw [next]
      obtain ⟨regular₂, same, fits₂, fresh₂⟩ := begun_look regular₁ known
      refine (ih regular₂ fits₂ fresh₂ ?_).cons (same.trans (selection?_congr channels))
        (run.step (.look known))
      rintro - c' channel'
      rw [channel?_setChannel] at channel'
      cases channel'
      rfl

/-! ### All tasks -/

/-- Whichever task has its turn, unless it is the follower. -/
theorem keeps_turn (first : id.IsFirst) (other : id ≠ .follower 0) (w : World) :
    Keeps w (w.turn id) := by
  refine .of_regular fun h => ?_
  have retries : ∀ session r, TaskId.IsFirst (.retries session r) →
      Keeps w (w.runRetries (.retries session r) session r) := by
    intro session r first
    have zero : session = 0 := first
    subst zero
    exact keeps_runRetries first r w
  cases known : w.task? id with
  | none =>
    cases id with
    | retries session r => exact retries session r first
    | _ =>
      simp only [turn, known]
      exact .refl
  | some t =>
    have passive := h.task known
    cases id with
    | retries session r => exact retries session r first
    | timer session r number =>
      have zero : session = 0 := first
      subst zero
      simp only [turn, known]
      exact keeps_runTimer first r passive w
    | follower number => exact absurd (congrArg TaskId.follower first) other
    | _ =>
      simp only [turn, known]
      exact keeps_runCall first passive w

/-- What the user waits for has its turn. -/
theorem keeps_turn_main (w : World) : Keeps w (w.turn .main) := by
  have first : TaskId.IsFirst .main := trivial
  exact keeps_turn first nofun w

/-- Whichever task has its turn. -/
theorem ends_turn (regular : w.IsRegular) (first : id.IsFirst) {f : Following}
    (idle : f.todo = []) : Ends (w, f) (w.turn id) := by
  by_cases follows : id = .follower 0
  · subst follows
    cases known : w.task? (.follower 0) with
    | none =>
      simp only [turn, known]
      exact Keeps.refl.ends regular idle
    | some t =>
      simp only [turn, known]
      refine ends_runFollower 2 regular (regular.task known).fits (fun r todo => ?_) nofun
      rw [idle] at todo
      cases todo
  · exact (keeps_turn first follows w).ends regular idle

/-- A task that was woken has its turn. -/
theorem ends_woken (regular : w.IsRegular) (mem : id ∈ w.queue) {f : Following}
    (idle : f.todo = []) : Ends (w, f) (turn id { w with queue := w.queue.erase id }) := by
  have taken : Keeps w { w with queue := w.queue.erase id } :=
    .within { queue := List.erase_subset }
  obtain ⟨regular', channels, run⟩ := taken regular
  obtain ⟨past, run⟩ := run f
  exact (ends_turn regular' (regular.queue id mem) idle).cons (selection?_congr channels) run

/-- Time passes. -/
theorem keeps_tick? (ticked : w.tick? = some w') : Keeps w w' := by
  refine .of_regular fun h => ?_
  unfold tick? at ticked
  dsimp only at ticked
  split at ticked
  · cases ticked
  · rename_i due _
    cases ticked
    have passed : Keeps w { w with
        now := max w.now due
        alarms := (w.alarms.filter w.isAwaited).filter (due < ·.1) } :=
      .within { alarms := fun a mem => (List.mem_filter.1 (List.mem_filter.1 mem).1).1 }
    rw [← List.foldl_map (g := fun w id => wake id w)]
    refine passed.trans (.of_goes fun f => .wakeEach fun id mem => ?_)
    obtain ⟨a, ha, rfl⟩ := List.mem_map.1 mem
    exact h.alarms a (List.mem_filter.1 (List.mem_filter.1 ha).1).1

/-- A task is given up. -/
theorem keeps_abandon (id : TaskId) (w : World) : Keeps w (w.abandon id) := by
  refine .of_regular fun h => ?_
  unfold abandon
  cases known : w.task? id with
  | none => exact .refl
  | some t =>
    dsimp only
    rw [(h.task known).session]
    refine Keeps.releaseAll ((Keeps.dropTask id).trans (.foldl fun w p => ?_))
    split
    · exact .act _ rfl
    · exact .refl

end OfflineSchedule.Turns.World
