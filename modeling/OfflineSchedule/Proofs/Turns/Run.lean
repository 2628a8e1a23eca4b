import OfflineSchedule.Proofs.Convention.Run
import OfflineSchedule.Turns.World
/-!
# Runs of a world

Whatever the tasks of a world with one session do is, for the convention, one move after the other.
A run leaves it open which task makes a move, and when, but for one thing: only the follower
activates cons. It takes up the con that is on the channel, and then activates that con for one
resource after the other; what it has still to do is kept beside the world (`Following`). So a
resource for which this is done has selected the con that the follower took up
(`Run.selected_eq`), which is the con on the channel unless that is new.
-/

namespace OfflineSchedule.Turns

open Convention (Deed Stage)
open Sync (Move Progress)

/-! ## Steps -/

/-- How far the follower has come. -/
structure Following where
  /-- The con that it took up last. -/
  con : Option String := none
  /-- The resources for which it has still to activate that con. -/
  todo : List Resource := []

namespace World

variable {w w' w'' : World}

/-- The only session and the store. -/
def stage (w : World) : Stage := ⟨w.store, w.convention 0⟩

/-- Two worlds are the same to a convention: they may differ in tasks, alarms, requests and the
like, but not in the store, the sessions and the channels. -/
structure Alike (w w' : World) : Prop where
  policy : w'.policy = w.policy := by rfl
  hasAnnouncements : w'.hasAnnouncements = w.hasAnnouncements := by rfl
  store : w'.store = w.store := by rfl
  sessions : w'.sessions = w.sessions := by rfl
  channels : w'.channels = w.channels := by rfl

namespace Alike

@[refl] theorem refl (w : World) : w.Alike w := {}

@[trans] theorem trans (h : w.Alike w') (h' : w'.Alike w'') : w.Alike w'' :=
  ⟨h'.policy.trans h.policy, h'.hasAnnouncements.trans h.hasAnnouncements, h'.store.trans h.store,
    h'.sessions.trans h.sessions, h'.channels.trans h.channels⟩

theorem convention (h : w.Alike w') (session : Nat) :
    w'.convention session = w.convention session := by
  simp [World.convention, h.policy, h.hasAnnouncements, h.sessions]

theorem stage (h : w.Alike w') : w'.stage = w.stage := by
  rw [World.stage, World.stage, h.store, h.convention]

theorem channel? (h : w.Alike w') (number : Nat) : w'.channel? number = w.channel? number := by
  simp [World.channel?, h.channels]

end Alike

/-! ### Tasks -/

variable (id : TaskId) (session : Nat) (r : Resource)

theorem alike_wake (w : World) : w.Alike (w.wake id) := by
  unfold wake
  split
  · exact {}
  · split <;> exact {}

theorem alike_spawn (t : Task) (w : World) : w.Alike (w.spawn id t) :=
  (show w.Alike (w.setTask id t) from {}).trans (alike_wake id _)

theorem alike_spawnRevalidation (ticket : Nat) (w : World) :
    w.Alike (w.spawnRevalidation session r ticket) := alike_spawn _ _ w

theorem alike_spawnTimer (w : World) : w.Alike (w.spawnTimer session r) :=
  (show w.Alike { w.dropTimers session r with timers := w.timers + 1 } from {}).trans
    (alike_spawn _ _ _)

/-! ### Moves -/

theorem alike_stopTimers (w : World) : w.Alike (w.stopTimers session r) := by
  unfold stopTimers
  split
  · exact .refl w
  · exact {}

theorem alike_startTasks (p : Progress) (w : World) : w.Alike (w.startTasks session r p) := by
  unfold startTasks
  split
  · exact alike_spawnRevalidation session r _ w
  · exact alike_spawnRevalidation session r _ w
  · split
    · exact alike_spawnTimer session r w
    · exact .refl w
  · exact .refl w

/-- Of a move only the store and the convention are left when the tasks do not count. -/
theorem alike_act (m : Move) (w : World) :
    (w.make session r m).2.Alike (w.act session r m).2 :=
  (alike_stopTimers session r _).trans (alike_startTasks session r _ _)

theorem sessions_make (m : Move) (w : World) : (w.make session r m).2.sessions =
    w.sessions.set session ((w.convention session).step r m w.store).2.2 := rfl

theorem store_make (m : Move) (w : World) :
    (w.make session r m).2.store = ((w.convention session).step r m w.store).2.1 := rfl

/-- In a world with one session a move of the session is one of its stage. -/
theorem stage_make (one : w.sessions.length = 1) (m : Move) :
    (w.make 0 r m).2.stage = w.stage.next r m := by
  obtain ⟨c, hc⟩ := List.length_eq_one_iff.1 one
  simp [stage, convention, Stage.next, sessions_make, store_make, hc]

theorem stage_act (one : w.sessions.length = 1) (m : Move) :
    (w.act 0 r m).2.stage = w.stage.next r m := by
  rw [(alike_act 0 r m w).stage, stage_make r one]

theorem length_sessions_act (m : Move) (w : World) :
    (w.act session r m).2.sessions.length = w.sessions.length := by
  rw [(alike_act session r m w).sessions, sessions_make]
  exact List.length_set

theorem channel?_act (m : Move) (w : World) (number : Nat) :
    (w.act session r m).2.channel? number = w.channel? number :=
  (alike_act session r m w).channel? number

theorem channel?_congr (h : w'.channels = w.channels) (number : Nat) :
    w'.channel? number = w.channel? number := by
  rw [channel?, channel?, h]

theorem channel?_setChannel (number : Nat) (c : Channel) (w : World) :
    (w.setChannel number c).channel? number = some c := by
  simp [channel?, setChannel]

end World

/-- What can happen in a world with one session, the moves that are made, and how far the follower
has come then. -/
inductive Next : World × Following → List Deed → World × Following → Prop where
  /-- Nothing that concerns the convention. -/
  | rest {w w' : World} {f : Following} (alike : w.Alike w') : Next (w, f) [] (w', f)
  /-- A resource makes a move that activates nothing. -/
  | move {w : World} {f : Following} (r : Resource) {m : Move} (inactive : m.activated? = none) :
      Next (w, f) [⟨w.stage, r, m⟩] ((w.act 0 r m).2, f)
  /-- The follower activates its con for a resource. -/
  | activate {w : World} {f : Following} {r : Resource} {con : String} (taken : f.con = some con)
      (todo : r ∈ f.todo) : Next (w, f) [⟨w.stage, r, .activate con⟩]
        ((w.act 0 r (.activate con)).2, { f with todo := f.todo.filter (· ≠ r) })
  /-- The follower takes up the con that is on the channel. -/
  | look {w : World} {f : Following} {c : Channel} (channel : w.channel? 0 = some c) :
      Next (w, f) [] (w.setChannel 0 { c with isNew := false },
        ⟨some c.con, (w.convention 0).resources⟩)
  /-- Another con is put on the channel. -/
  | use {w : World} {f : Following} (con : String) : Next (w, f) [] (w.setChannel 0 { con }, f)

/-- Steps, one after the other, and the moves that are made, the latest one first. -/
inductive Run : World × Following → List Deed → World × Following → Prop where
  | refl {x : World × Following} : Run x [] x
  | step {x y z : World × Following} {past deeds : List Deed} (run : Run x past y)
      (step : Next y deeds z) : Run x (deeds ++ past) z

namespace Run

variable {x y z : World × Following} {past later : List Deed}

theorem single {deeds : List Deed} (step : Next x deeds y) : Run x deeds y := by
  have run := Run.refl.step step
  rwa [List.append_nil] at run

theorem trans (run : Run x past y) (next : Run y later z) : Run x (later ++ past) z := by
  induction next with
  | refl => exact run
  | step _ step ih =>
    have run := ih.step step
    rwa [← List.append_assoc] at run

/-! ## What a run does to the convention -/

variable {policy : Retry.Policy} {hasAnnouncements : Bool} {store : Store} {w₀ : World}

/-- A world in which nothing has happened yet. -/
structure Begins (policy : Retry.Policy) (hasAnnouncements : Bool) (store : Store) (w₀ : World) :
    Prop where
  sessions : w₀.sessions = [.new policy hasAnnouncements]
  store : w₀.store = store
  /-- The follower has not seen any con yet. -/
  unseen : ∀ c, w₀.channel? 0 = some c → c.isNew = true

theorem Begins.stage (h : Begins policy hasAnnouncements store w₀) :
    w₀.stage = .new policy hasAnnouncements store := by
  simp [World.stage, World.convention, h.sessions, h.store, Stage.new]

theorem length_sessions (begins : Begins policy hasAnnouncements store w₀)
    (run : Run (w₀, {}) past y) : y.1.sessions.length = 1 := by
  induction run with
  | refl =>
    rw [begins.sessions]
    rfl
  | step _ step one =>
    cases step with
    | rest alike => rwa [alike.sessions]
    | move r => rwa [World.length_sessions_act]
    | activate => rwa [World.length_sessions_act]
    | look => exact one
    | use => exact one

/-- The moves that are made make a run of the convention. -/
theorem convention (begins : Begins policy hasAnnouncements store w₀) (run : Run (w₀, {}) past y) :
    Convention.Run (fun _ _ _ => True) (.new policy hasAnnouncements store) past y.1.stage := by
  induction run with
  | refl =>
    rw [begins.stage]
    exact .nil
  | step run step moves =>
    have one := run.length_sessions begins
    cases step with
    | rest alike => rwa [alike.stage]
    | move r =>
      rw [World.stage_act r one]
      exact moves.cons trivial
    | activate =>
      rw [World.stage_act _ one]
      exact moves.cons trivial
    | look => exact moves
    | use => exact moves

/-! ## What is selected -/

/-- What the follower has done so far: the con on the channel, unless it is new, is the one that it
took up, and resources that are not still to do have selected that con. -/
structure Followed (x : World × Following) : Prop where
  taken : ∀ c, x.1.channel? 0 = some c → c.isNew = false → x.2.con = some c.con
  selected : ∀ r, x.1.stage.convention.has r = true → r ∉ x.2.todo →
    (x.1.stage.scene r).sync.selected = x.2.con

theorem Followed.step {deeds : List Deed} (h : Followed x) (one : x.1.sessions.length = 1)
    (step : Next x deeds y) : Followed y := by
  obtain ⟨taken, selected⟩ := h
  cases step with
  | rest alike =>
    refine ⟨fun c channel => taken c ?_, fun r has => ?_⟩
    · rwa [alike.channel?] at channel
    · rw [alike.stage] at has ⊢
      exact selected r has
  | @move w f other m inactive =>
    refine ⟨fun c channel => taken c ?_, fun r has done => ?_⟩
    · rwa [World.channel?_act] at channel
    · rw [World.stage_act other one] at has ⊢
      rw [Stage.has_next] at has
      rw [Stage.selected_next, inactive, Option.none_or, ite_self]
      exact selected r has done
  | @activate w f other con following todo =>
    refine ⟨fun c channel => taken c ?_, fun r has done => ?_⟩
    · rwa [World.channel?_act] at channel
    · rw [World.stage_act other one] at has ⊢
      rw [Stage.has_next] at has
      rw [Stage.selected_next]
      by_cases hr : r = other
      · rw [if_pos hr]
        exact following.symm
      · rw [if_neg hr]
        refine selected r has fun mem => done ?_
        exact List.mem_filter.2 ⟨mem, by simpa using hr⟩
  | @look w f c channel =>
    -- All resources are to do again, so there is nothing to show of those that are done.
    refine ⟨fun c' channel' _ => ?_, fun r has done => ?_⟩
    · rw [World.channel?_setChannel] at channel'
      cases channel'
      rfl
    · exact absurd (Convention.mem_resources.2 has) done
  | @use w f con =>
    refine ⟨fun c channel seen => ?_, selected⟩
    rw [World.channel?_setChannel] at channel
    cases channel
    cases seen

theorem followed (begins : Begins policy hasAnnouncements store w₀) (run : Run (w₀, {}) past y) :
    Followed y := by
  induction run with
  | refl =>
    refine ⟨fun c channel seen => ?_, fun r _ _ => ?_⟩
    · rw [begins.unseen c channel] at seen
      cases seen
    · rw [begins.stage, Stage.scene_new]
      rfl
  | step run step h => exact h.step (run.length_sessions begins) step

/-- A resource for which the follower is done has selected the con on the channel, unless the
follower has not seen that con yet. -/
theorem selected_eq (begins : Begins policy hasAnnouncements store w₀) (run : Run (w₀, {}) past y)
    {c : Channel} (channel : y.1.channel? 0 = some c) (seen : c.isNew = false) {r : Resource}
    (has : y.1.stage.convention.has r = true) (done : r ∉ y.2.todo) :
    (y.1.stage.scene r).sync.selected = some c.con := by
  have h := run.followed begins
  rw [h.selected r has done]
  exact h.taken c channel seen

end Run

end OfflineSchedule.Turns
