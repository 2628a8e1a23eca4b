import OfflineSchedule.Proofs.Sync.Unswitched
import OfflineSchedule.Proofs.Turns.Closed
/-!
# What is news

A world with one session notes which resources publish a state. As long as one con only is on the
channels, tasks activate no other one (`IsOnly`), and readers see of a resource what they saw at an
earlier moment unless it is noted as news since, the end of retries apart (`Recalls`). Both survive
whatever tasks do (`closed_recalls`).
-/

namespace OfflineSchedule.Turns.World

open Convention (Stage)
open Sync (Event Move)

variable {free : TaskId → Prop} {w w' : World} {con : String} {c : Convention}

/-- There is one session, and it has to do with one con only. -/
structure IsOnly (con : String) (w : World) : Prop where
  one : w.sessions.length = 1
  selection : w.selection? = some con
  channels : ∀ number c, w.channel? number = some c → c.con = con
  resources : ∀ r, Sync.IsOnly con ((w.convention 0).get r)

/-- Unless a resource is news, readers see of it what they saw when the convention was `c`, and no
retries but those that were announced then. -/
structure Recalls (c : Convention) (w : World) : Prop where
  has : ∀ r, (w.convention 0).has r = c.has r
  seen : ∀ r, c.has r = true → r ∈ w.news ∨
    ((w.convention 0).get r).sync.current = (c.get r).sync.current ∧
      (((w.convention 0).get r).sync.isRetrying = true → (c.get r).sync.isRetrying = true)

theorem Recalls.refl (w : World) : w.Recalls (w.convention 0) :=
  ⟨fun _ => rfl, fun _ _ => .inr ⟨rfl, id⟩⟩

/-! ## Housekeeping -/

theorem Quiet.convention (quiet : Quiet free w w') (session : Nat) :
    w'.convention session = w.convention session := by
  simp [World.convention, quiet.policy, quiet.hasAnnouncements, quiet.sessions]

theorem IsOnly.quiet (h : w.IsOnly con) (quiet : Quiet free w w') : w'.IsOnly con := by
  refine ⟨?_, (quiet.channels 0).trans h.selection, fun number c channel => ?_, fun r => ?_⟩
  · rw [quiet.sessions, h.one]
  · have same := quiet.channels number
    rw [channel] at same
    obtain ⟨c', channel', con'⟩ := Option.map_eq_some_iff.1 same.symm
    exact con'.symm.trans (h.channels number c' channel')
  · rw [quiet.convention]
    exact h.resources r

theorem Recalls.quiet (h : w.Recalls c) (quiet : Quiet free w w') : w'.Recalls c := by
  refine ⟨fun r => ?_, fun r has => ?_⟩
  · rw [quiet.convention]
    exact h.has r
  · rw [quiet.convention, quiet.news]
    exact h.seen r has

/-! ## Moves -/

theorem current_eq_zero (one : w.sessions.length = 1) : w.current = 0 := by
  rw [World.current, one]

/-- A move of a session that is not there concerns the store at most. -/
theorem quiet_make (one : w.sessions.length = 1) {session : Nat} (other : session ≠ 0)
    (r : Resource) (m : Move) : Quiet free w (w.make session r m).2 := by
  have beyond : w.sessions.length ≤ session := by omega
  have sessions : (w.make session r m).2.sessions = w.sessions :=
    List.set_eq_of_length_le beyond
  have news : (w.make session r m).2.news = w.news := by
    simp [World.make, setConvention, current_eq_zero one, other]
  exact { sessions, news }

/-- A move of a resource is an event for it, and nothing for the others. -/
theorem machine_make (one : w.sessions.length = 1) (r r' : Resource) (m : Move) :
    ((w.make 0 r m).2.convention 0).get r' =
      if r' = r then ((w.stage.scene r').next (.move m w.store.failing)).machine
      else (w.convention 0).get r' := by
  have after : ((w.make 0 r m).2.convention 0).get r' = ((w.stage.next r m).scene r').machine :=
    congrArg (fun s => (Stage.scene r' s).machine) (stage_make r one m)
  rw [after]
  split
  · rename_i same
    subst same
    rw [Stage.scene_next_self]
    rfl
  · rename_i other
    rw [Stage.scene_next_of_ne other]
    rfl

/-- What has been news stays news, and a resource that publishes a state becomes news. -/
theorem news_make (one : w.sessions.length = 1) (r : Resource) (m : Move) :
    w.news ⊆ (w.make 0 r m).2.news ∧ (r ∈ (w.make 0 r m).2.news ∨
      (((w.make 0 r m).2.convention 0).get r).sync.version =
        ((w.convention 0).get r).sync.version) := by
  have after : (w.make 0 r m).2.convention 0 = ((w.convention 0).step r m w.store).2.2 :=
    congrArg Stage.convention (stage_make r one m)
  have news : (w.make 0 r m).2.news =
      if (((w.make 0 r m).2.convention 0).get r).sync.version =
        ((w.convention 0).get r).sync.version then w.news else w.news ++ [r] := by
    rw [after]
    simp [World.make, setConvention, current_eq_zero one, ite_not]
  rw [news]
  split
  · rename_i same
    exact ⟨List.Subset.refl _, .inr same⟩
  · exact ⟨List.subset_append_left .., .inl (List.mem_append_right _ (List.mem_singleton.2 rfl))⟩

theorem IsOnly.make (h : w.IsOnly con) (r : Resource) {m : Move} (within : m.IsWithin (· = con)) :
    (w.make 0 r m).2.IsOnly con := by
  refine ⟨List.length_set.trans h.one, h.selection, h.channels, fun r' => ?_⟩
  rw [machine_make h.one]
  split
  · exact Sync.IsOnly.next (s := w.stage.scene r') (h.resources r') (within.event _)
  · exact h.resources r'

theorem Recalls.make (h : w.Recalls c) (only : w.IsOnly con) (r : Resource) {m : Move}
    (within : m.IsWithin (· = con)) : (w.make 0 r m).2.Recalls c := by
  obtain ⟨kept, news⟩ := news_make only.one r m
  refine ⟨fun r' => ?_, fun r' has => ?_⟩
  · rw [← h.has r']
    exact (congrArg (·.convention.has r') (stage_make r only.one m)).trans
      (w.stage.has_next r r' m)
  · refine (h.seen r' has).elim (fun mem => .inl (kept mem)) fun ⟨seen, announced⟩ => ?_
    by_cases hr : r' = r
    · subst hr
      refine news.imp_right fun same => ?_
      rw [machine_make only.one, if_pos rfl] at same ⊢
      have publishes := Sync.publishes_next (w.stage.scene r') (.move m w.store.failing)
      refine ⟨?_, fun timer => announced (publishes.retrying same timer)⟩
      rw [← seen]
      exact Sync.IsOnly.current_next (s := w.stage.scene r') (only.resources r') (within.event _)
        same
    · right
      rw [machine_make only.one, if_neg hr]
      exact ⟨seen, announced⟩

/-- Whatever tasks do, readers see what they saw but for what is news. -/
theorem closed_recalls (con : String) (c : Convention) :
    Closed (fun _ => True) (· = con) fun w => w.IsOnly con ∧ w.Recalls c where
  timers _ _ _ := trivial
  revalidations _ _ _ := trivial
  quiet quiet h := ⟨h.1.quiet quiet, h.2.quiet quiet⟩
  make := by
    rintro w session r m within ⟨only, recalls⟩
    by_cases first : session = 0
    · subst first
      exact ⟨only.make r within, recalls.make only r within⟩
    · have quiet : Quiet (fun _ => True) w (w.make session r m).2 :=
        quiet_make only.one first r m
      exact ⟨only.quiet quiet, recalls.quiet quiet⟩
  channels h channel := h.1.channels _ _ channel

end OfflineSchedule.Turns.World
