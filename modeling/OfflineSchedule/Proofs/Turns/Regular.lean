import OfflineSchedule.Proofs.Turns.Run
import OfflineSchedule.Turns.Clock
/-!
# Regular worlds

Worlds with one session and one follower, in which no task but the follower's begins with an
activation. Whatever tasks do keeps a world regular.
-/

namespace OfflineSchedule.Turns

open Retry (Moment)
open Sync (Move Progress)

/-! ## Tasks -/

/-- The task belongs to the first session, or to the first follower. -/
def TaskId.IsFirst : TaskId → Prop
  | .main | .call _ => True
  | .revalidation session _ _ | .retries session _ | .timer session _ _ => session = 0
  | .follower number => number = 0

namespace Task

/-- The strand for a resource is under way, if there is one. -/
def HasBegun (r : Resource) (t : Task) : Prop := ∀ m, t.strand? r ≠ some (.fresh m)

/-- The strand for a resource begins with the activation of a con. -/
def Activates (r : Resource) (t : Task) : Prop :=
  ∃ con, t.strand? r = some (.fresh (.activate con))

/-- The task belongs to the first session, and nothing that it begins with activates a con. -/
structure IsPassive (t : Task) : Prop where
  session : t.session = 0
  inactive : ∀ r m, t.strand? r = some (.fresh m) → m.activated? = none

/-- The task may begin with what the follower has still to do. -/
structure Fits (f : Following) (t : Task) : Prop where
  session : t.session = 0
  inactive : ∀ r m, t.strand? r = some (.fresh m) → m.activated? = none ∨
    ∃ con, m = .activate con ∧ f.con = some con ∧ r ∈ f.todo

variable {t : Task} {f : Following}

theorem IsPassive.fits (h : t.IsPassive) : t.Fits f :=
  ⟨h.session, fun r m fresh => .inl (h.inactive r m fresh)⟩

theorem IsPassive.not_activates (h : t.IsPassive) (r : Resource) : ¬t.Activates r := by
  rintro ⟨con, fresh⟩
  cases h.inactive r _ fresh

theorem IsPassive.of_begun (session : t.session = 0) (begun : ∀ r, t.HasBegun r) : t.IsPassive :=
  ⟨session, fun r m fresh => absurd fresh (begun r m)⟩

/-- A task without strands. -/
theorem IsPassive.idle : ({ session := 0 } : Task).IsPassive := ⟨rfl, fun _ _ fresh => nomatch fresh⟩

/-- A task with one strand. -/
theorem IsPassive.single {r : Resource} {s : Strand}
    (inactive : ∀ m, s = .fresh m → m.activated? = none) :
    ({ session := 0, strands := [(r, s)] } : Task).IsPassive := by
  refine ⟨rfl, fun r' m fresh => inactive m ?_⟩
  unfold strand? at fresh
  by_cases h : r = r'
  · simpa [h] using fresh
  · simp [h] at fresh

theorem strand?_strands {session : Nat} {rs : List Resource} {m : Move} (r : Resource) :
    ({ session, strands := World.strands rs m } : Task).strand? r =
      if r ∈ rs then some (.fresh m) else none := by
  simp only [strand?, World.strands, List.find?_map]
  induction rs with
  | nil => rfl
  | cons r' rs ih =>
    by_cases h : r' = r
    · simp [h]
    · have h' : r ≠ r' := Ne.symm h
      simpa [h, h'] using ih

theorem strand?_setStrand (t : Task) (r r' : Resource) (s : Strand) :
    (t.setStrand r s).strand? r' =
      if r' = r then (t.strand? r).map fun _ => s else t.strand? r' := by
  have same : ((fun p : Resource × Strand => decide (p.1 = r')) ∘
      fun p => if p.1 = r then (r, s) else p) = fun p => decide (p.1 = r') := by
    funext p
    by_cases h : p.1 = r <;> simp [h]
  have found : (t.setStrand r s).strand? r' =
      (t.strands.find? (·.1 = r')).map fun p => if p.1 = r then s else p.2 := by
    simp only [strand?, setStrand, List.find?_map, same, Option.map_map]
    congr 1
    funext p
    by_cases h : p.1 = r <;> simp [h]
  rw [found]
  unfold strand?
  by_cases h : r' = r
  · subst h
    rw [if_pos rfl]
    cases hp : t.strands.find? (·.1 = r') with
    | none => rfl
    | some p =>
      have name : p.1 = r' := by simpa using List.find?_some hp
      simp [name]
  · rw [if_neg h]
    cases hp : t.strands.find? (·.1 = r') with
    | none => rfl
    | some p =>
      have name : p.1 = r' := by simpa using List.find?_some hp
      simp [name, h]

/-- A strand that is under way begins nothing. -/
theorem fresh_of_setStrand {r r' : Resource} {s : Strand} (begun : ∀ m, s ≠ .fresh m) {m : Move}
    (fresh : (t.setStrand r s).strand? r' = some (.fresh m)) :
    r' ≠ r ∧ t.strand? r' = some (.fresh m) := by
  rw [strand?_setStrand] at fresh
  split at fresh
  · obtain ⟨-, -, fresh⟩ := Option.map_eq_some_iff.1 fresh
    exact absurd fresh (begun m)
  · rename_i other
    exact ⟨other, fresh⟩

theorem IsPassive.setStrand (h : t.IsPassive) (r : Resource) {s : Strand}
    (begun : ∀ m, s ≠ .fresh m) : (t.setStrand r s).IsPassive :=
  ⟨h.session, fun r' m fresh => h.inactive r' m (fresh_of_setStrand begun fresh).2⟩

theorem hasBegun_setStrand (t : Task) (r : Resource) {s : Strand} (begun : ∀ m, s ≠ .fresh m) :
    (t.setStrand r s).HasBegun r := fun _ fresh => (fresh_of_setStrand begun fresh).1 rfl

theorem HasBegun.setStrand {r : Resource} (h : t.HasBegun r) (r' : Resource) {s : Strand}
    (begun : ∀ m, s ≠ .fresh m) : (t.setStrand r' s).HasBegun r :=
  fun m fresh => h m (fresh_of_setStrand begun fresh).2

end Task

/-! ## Worlds -/

namespace World

variable {w w' : World} {id : TaskId}

/-- There is one session, and all tasks, those to come included, belong to it. No task that waits
for its turn begins with an activation. -/
structure IsRegular (w : World) : Prop where
  one : w.sessions.length = 1
  tasks : ∀ p ∈ w.tasks, p.1.IsFirst ∧ p.2.IsPassive
  queue : ∀ id ∈ w.queue, id.IsFirst
  alarms : ∀ a ∈ w.alarms, a.2.IsFirst

/-- Two worlds are the same to a convention, and tasks may have been given up. -/
structure Within (w w' : World) : Prop extends w.Alike w' where
  tasks : w'.tasks ⊆ w.tasks := by exact List.Subset.refl _
  queue : w'.queue ⊆ w.queue := by exact List.Subset.refl _
  alarms : w'.alarms ⊆ w.alarms := by exact List.Subset.refl _

theorem within_dropTask (id : TaskId) (w : World) : w.Within (w.dropTask id) :=
  { tasks := List.filter_subset_self _ }

theorem within_dropTimers (session : Nat) (r : Resource) (w : World) :
    w.Within (w.dropTimers session r) :=
  { tasks := List.filter_subset_self _ }

namespace IsRegular

theorem task (h : w.IsRegular) {t : Task} (known : w.task? id = some t) : t.IsPassive := by
  obtain ⟨p, hp, rfl⟩ := Option.map_eq_some_iff.1 known
  exact (h.tasks p (List.mem_of_find?_eq_some hp)).2

theorem first (h : w.IsRegular) {t : Task} (known : w.task? id = some t) : id.IsFirst := by
  obtain ⟨p, hp, -⟩ := Option.map_eq_some_iff.1 known
  have name : p.1 = id := by simpa using List.find?_some hp
  rw [← name]
  exact (h.tasks p (List.mem_of_find?_eq_some hp)).1

theorem within (h : w.IsRegular) (within : w.Within w') : w'.IsRegular := by
  refine ⟨?_, fun p mem => h.tasks p (within.tasks mem), fun id mem => h.queue id (within.queue mem),
    fun a mem => h.alarms a (within.alarms mem)⟩
  rw [within.sessions]
  exact h.one

theorem setTask (h : w.IsRegular) (first : id.IsFirst) {t : Task} (passive : t.IsPassive) :
    (w.setTask id t).IsRegular := by
  refine ⟨h.one, fun p mem => ?_, h.queue, h.alarms⟩
  rcases List.mem_cons.1 mem with rfl | mem
  · exact ⟨first, passive⟩
  · exact (h.within (within_dropTask id w)).tasks p mem

theorem wake (h : w.IsRegular) (first : id.IsFirst) : (w.wake id).IsRegular := by
  unfold World.wake
  split
  · exact ⟨h.one, h.tasks, h.queue, h.alarms⟩
  · split
    · exact h
    · refine ⟨h.one, h.tasks, fun id' mem => ?_, h.alarms⟩
      rcases List.mem_append.1 mem with mem | mem
      · exact h.queue id' mem
      · rwa [List.mem_singleton.1 mem]

theorem spawn (h : w.IsRegular) (first : id.IsFirst) {t : Task} (passive : t.IsPassive) :
    (w.spawn id t).IsRegular := (h.setTask first passive).wake first

theorem setAlarm (h : w.IsRegular) (first : id.IsFirst) (due : Moment) :
    (w.setAlarm due id).IsRegular := by
  refine ⟨h.one, h.tasks, h.queue, fun a mem => ?_⟩
  rcases List.mem_append.1 mem with mem | mem
  · exact h.alarms a mem
  · rwa [List.mem_singleton.1 mem]

theorem setChannel (h : w.IsRegular) (number : Nat) (c : Channel) :
    (w.setChannel number c).IsRegular := ⟨h.one, h.tasks, h.queue, h.alarms⟩

/-! ### Moves -/

theorem make (h : w.IsRegular) (r : Resource) (m : Move) : (w.make 0 r m).2.IsRegular :=
  ⟨List.length_set.trans h.one, h.tasks, h.queue, h.alarms⟩

theorem startTasks (h : w.IsRegular) (r : Resource) (p : Progress) :
    (w.startTasks 0 r p).IsRegular := by
  have revalidation : ∀ ticket, (w.spawnRevalidation 0 r ticket).IsRegular := by
    intro ticket
    have first : TaskId.IsFirst (.revalidation 0 r ticket) := rfl
    refine h.spawn first (.single fun m fresh => ?_)
    cases fresh
    rfl
  unfold World.startTasks
  split
  · exact revalidation _
  · exact revalidation _
  · split
    · have first : TaskId.IsFirst (.timer 0 r w.timers) := rfl
      have numbered : IsRegular { w.dropTimers 0 r with timers := w.timers + 1 } :=
        h.within { within_dropTimers 0 r w with }
      exact numbered.spawn first .idle
    · exact h
  · exact h

theorem act (h : w.IsRegular) (r : Resource) (m : Move) : (w.act 0 r m).2.IsRegular := by
  have made := h.make r m
  have stopped : ((w.make 0 r m).2.stopTimers 0 r).IsRegular := by
    unfold stopTimers
    split
    · exact made
    · exact made.within (within_dropTimers 0 r _)
  exact stopped.startTasks r _

end IsRegular

end World

end OfflineSchedule.Turns
