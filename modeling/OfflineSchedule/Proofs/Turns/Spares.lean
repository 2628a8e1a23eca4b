import OfflineSchedule.Proofs.Turns.Closed
/-!
# Tasks leave the follower alone

A task that has its turn starts others and stops timers, but the task of the follower is changed by
the follower only.
-/

namespace OfflineSchedule.Turns.World

variable {id : TaskId}

/-- The task of the follower stays as it is. -/
def Spares (w w' : World) : Prop := w'.task? (.follower 0) = w.task? (.follower 0)

theorem closed_spares (w : World) : Closed (· ≠ .follower 0) (fun _ => True) (Spares w) where
  timers _ _ _ := nofun
  revalidations _ _ _ := nofun
  quiet quiet spares := (quiet.tasks (.follower 0) (not_not.2 rfl)).trans spares
  make _ _ _ _ spares := spares
  channels _ _ := trivial

/-- No turn of another task changes the task of the follower. -/
theorem Spares.turn (other : id ≠ .follower 0) (w : World) : Spares w (w.turn id) :=
  (closed_spares w).turn other (fun _ _ _ _ _ _ _ => trivial) rfl

end OfflineSchedule.Turns.World
