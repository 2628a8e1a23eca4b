import OfflineSchedule.Turns.World
/-!
# Time

Time stands still as long as any task can go on. When all of them wait, it passes on to the next
alarm. Of alarms for one moment, the one that was set first comes first.
-/

namespace OfflineSchedule.Turns.World

open Retry (Moment)

/-- Runs the tasks that were woken until all of them wait, but not what the user waits for. -/
def settle : (fuel : Nat) → World → World
  | 0, w => w
  | fuel + 1, w =>
    match w.queue with
    | [] => w
    | id :: queue => settle fuel ({ w with queue }.turn id)

/-- Whether somebody still wants to be woken. -/
def isAwaited (w : World) (alarm : Moment × TaskId) : Bool :=
  alarm.2 = .main || (w.task? alarm.2).isSome

/-- The earliest moment of some alarms. -/
def earliest? : List (Moment × TaskId) → Option Moment
  | [] => none
  | (due, _) :: alarms =>
    match earliest? alarms with
    | some other => some (min due other)
    | none => some due

/-- Lets time pass until the next alarm, and wakes the tasks that it is for. -/
def tick? (w : World) : Option World :=
  let alarms := w.alarms.filter w.isAwaited
  match earliest? alarms with
  | none => none
  | some due =>
    let w := { w with now := max w.now due, alarms := alarms.filter (due < ·.1) }
    some ((alarms.filter (·.1 ≤ due)).foldl (fun w alarm => w.wake alarm.2) w)

/-- Gives the user's task its turn if it was woken. -/
def turnMain (w : World) : World :=
  if w.isMainWoken then { w with isMainWoken := false }.turn .main else w

/-- So many turns are enough unless retries follow each other without end. -/
def turnLimit : Nat := 1000000

/-- Goes on until what the user waits for has ended. -/
def await : (fuel : Nat) → World → World
  | 0, w => w
  | fuel + 1, w =>
    let w := w.turnMain
    if (w.task? .main).isNone then w
    else
      let w := w.settle turnLimit
      if w.isMainWoken then await fuel w
      else
        match w.tick? with
        | some w => await fuel w
        | none => w

/-- Lets time pass. Every alarm up to then is heard, and all that follows from it happens. -/
def wait : (fuel : Nat) → (stop : Moment) → World → World
  | 0, _, w => w
  | fuel + 1, stop, w =>
    let w := w.settle turnLimit
    match earliest? (w.alarms.filter w.isAwaited) with
    | some due =>
      if due ≤ stop then
        match w.tick? with
        | some w => wait fuel stop w
        | none => w
      else { w with now := max w.now stop }
    | none => { w with now := max w.now stop }

end OfflineSchedule.Turns.World
