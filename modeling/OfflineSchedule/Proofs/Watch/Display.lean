import OfflineSchedule.Proofs.Watch.Unswitched
/-!
# The summary printed last

Once nothing is on the way any more, the summary that was printed last shows what a new one would
show of all resources, as long as the con is not switched (`last_summary_up_to_retries`). But a
retry can come to an end without any state being published: when it fails while a value is on
display, which stays there then. No change is sent on that occasion, and the summary goes on to
announce the retry.
-/

namespace OfflineSchedule

open Time (Instant)
open Turns (World)

namespace Watch

open Inbox (isChange)
open Sync (Move)
open Turns (Server)

variable {policy : Retry.Policy} {hasAnnouncements : Bool} {store : Store} {server : Server}
  {con : String} {x : Summary} {s : Session}

/-! ## What is shown -/

/-- Once nothing is on the way, readers see what they saw when the last summary was printed, and no
retries but those that were pending then. -/
theorem Displays.recalls
    (run : Displays (.start policy hasAnnouncements store server con) (some x) s)
    (seen : s.world.news = []) (drained : ∀ n ∈ s.inbox.waiting, isChange n = false) :
    ∃ c : Convention, x = c.summary s.con x.now ∧ (∀ r, s.convention.has r = c.has r) ∧
      ∀ r, c.has r = true → (s.convention.get r).sync.current = (c.get r).sync.current ∧
        ((s.convention.get r).sync.isRetrying = true → (c.get r).sync.isRetrying = true) := by
  have tracks := run.tracks (tracks_start ..)
  obtain ⟨c, same, recalls⟩ := (tracks.shown x rfl).resolve_left fun ⟨n, mem, change⟩ => by
    simp [drained n mem] at change
  rw [Session.convention, World.current_eq_zero tracks.only.one]
  refine ⟨c, same, recalls.has, fun r has => ?_⟩
  have news : r ∉ s.world.news := by simp [seen]
  exact (recalls.seen r has).resolve_left news

/-- **The summary printed last.** Whatever happens in a session that does not switch its con: once
no resource is news any more and no change waits to be taken, a new summary would say the same as
the one that was printed last, except that this one may announce retries that have come to an end
since. So the texts are the same if and only if that is not the case, or it was said that there is
no such con. -/
theorem last_summary_up_to_retries
    (run : Displays (.start policy hasAnnouncements store server con) (some x) s)
    (seen : s.world.news = []) (drained : ∀ n ∈ s.inbox.waiting, isChange n = false) :
    let retrying := s.convention.isRetrying
    s.convention.summary s.con x.now = x.withRetrying retrying ∧
      (retrying = true → x.retrying = true) ∧
      ((s.convention.summary s.con x.now).text = x.text ↔
        retrying = x.retrying ∨ x.notFound = true) := by
  intro retrying
  obtain ⟨c, same, has, recalls⟩ := run.recalls seen drained
  have summary : s.convention.summary s.con x.now = x.withRetrying retrying := by
    rw [same]
    exact Convention.summary_congr has (fun r present => (recalls r present).1) s.con x.now
  refine ⟨summary, fun pending => ?_, ?_⟩
  · rw [same]
    obtain ⟨r, mem, timer⟩ := List.any_eq_true.1 pending
    have present : c.has r = true := (has r).symm.trans (Convention.mem_resources.1 mem)
    exact List.any_eq_true.2 ⟨r, Convention.mem_resources.2 present, (recalls r present).2 timer⟩
  · rw [summary]
    exact Summary.text_withRetrying_eq_iff

/-! ### A retry that fails -/

def startOffline : Session := .start .standard false { kind := .database } (.scripted {}) "a"

/-- The server has given stale pages of con "a", and a summary has been printed. -/
def stalePages : Session :=
  let answer : Move := .answer 0 0 (.success (.array []) none true)
  let s := (startOffline.move .pages (.activate "a")).move .pages answer
  { s.relayWhere fun _ => true with inbox := {} }.react ⟨0, 0⟩ (.changed [.pages])

theorem displays_stalePages :
    Displays startOffline (some (stalePages.convention.summary "a" ⟨0, 0⟩)) stalePages := by
  have activates : Move.IsWithin (· = startOffline.con) (.activate "a") := by
    intro con activated
    cases activated
    rfl
  have run : Displays startOffline none startOffline := .nil
  let answer : Move := .answer 0 0 (.success (.array []) none true)
  have run := (run.move .pages activates).move .pages (m := answer) (.of_inactive rfl)
  exact (run.relay fun _ => true).take ⟨0, 0⟩ (by decide +kernel) (by decide +kernel)
    (show _ = some (.changed [.pages], {}) by decide +kernel) nofun

/-- As long as the retry is pending, the summary that announces it is what a new one would be. -/
theorem announced_retry_is_pending :
    ∃ x s, Displays (.start .standard false { kind := .database } (.scripted {}) "a") (some x) s ∧
      s.world.news = [] ∧ (∀ n ∈ s.inbox.waiting, isChange n = false) ∧ x.retrying = true ∧
      (s.convention.summary s.con x.now).text = x.text := by
  refine ⟨_, _, displays_stalePages, by decide +kernel, by decide +kernel, by decide +kernel, ?_⟩
  exact (last_summary_up_to_retries displays_stalePages (by decide +kernel)
    (by decide +kernel)).2.2.2 (.inl (by decide +kernel))

/-- No request is out, no timer runs, no retry is due, and neither news nor notices wait. -/
structure Session.IsIdle (s : Session) : Prop where
  jobs : ∀ r, (s.convention.get r).jobs = []
  timers : ∀ r, (s.convention.get r).sync.isRetrying = false
  triggers : ∀ r, (s.convention.get r).triggers = 0
  news : s.world.news = []
  unseen : s.relay.unseen = []
  waiting : s.inbox.waiting = []

/-- The retry of the stale pages fails. They stay on display and nothing is published, so the
summary that announced the retry is still the last one when everything is idle. -/
theorem announced_retry_has_failed :
    ∃ x s, Displays (.start .standard false { kind := .database } (.scripted {}) "a") (some x) s ∧
      s.IsIdle ∧ (s.convention.summary s.con x.now).text ≠ x.text := by
  have run := displays_stalePages.move .pages (m := .fire) (.of_inactive rfl)
  have run := run.move .pages (m := .retry) (.of_inactive rfl)
  have run := run.move .pages (m := .answer 1 1500000000 (.error 500)) (.of_inactive rfl)
  refine ⟨_, _, run, ?_, by decide +kernel⟩
  constructor
  case jobs | timers | triggers =>
    intro r
    cases r <;> decide +kernel
  all_goals decide +kernel

/-- The program does not print anything when the retry has failed, although the line about it is
gone from the summary. -/
example :
    let server : Server := .scripted { queued :=
      [(.events, ⟨0, .success (.array []) none false⟩),
        (.info, ⟨0, .success (.object [("name", .string "Alpha Con")]) none false⟩),
        (.pages, ⟨0, .success (.array []) none true⟩), (.pages, ⟨0, .error 500⟩)] }
    let s := (Session.start .standard false { kind := .database } server "a").calm ⟨0, 0⟩ 3
    let s' := (s.world.tick?.map fun w => ({ s with world := w } : Session).calm ⟨0, 0⟩ 3).getD s
    s'.output = s.output ∧
      (s.convention.summary "a" ⟨0, 0⟩).lines =
        (s'.convention.summary "a" ⟨0, 0⟩).lines ++ ["  (server data is stale, retrying)"] := by
  decide +kernel

end Watch

end OfflineSchedule
