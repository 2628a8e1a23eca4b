import OfflineSchedule.Proofs.Sync.Activation
import OfflineSchedule.Proofs.Sync.Requests
/-!
# A refreshment by itself

A refreshment activates its con and sees to it that one reload is made. Where that reload comes from
depends on the activation: it has begun one itself, it has left one to the background, which the
refreshment waits for, or it has begun none. In each case the request goes out in the same state of
the synchronizer, the one that an activation leaves which makes no request (`scene_refresh`), so that
a refreshment comes to the same as such an activation and a reload after it.
-/

namespace OfflineSchedule.Sync

open Http (Outcome)
open Json (Value)
open Retry (Moment Policy Scheduler)

variable {r : Resource} {Allowed : Scene r → Event → Prop} {s s' : Scene r}
  {past : List (Incident r)} {policy : Policy} {store : Store} {con : String}

/-! ## Calls that wait for the background -/

namespace Scene

/-- A call that has left its reload to the background waits for it to begin. By then the operations
in `faults` fail. -/
def join (faults : List StoreOperation) : Progress × Scene r → Progress × Scene r
  | (.joined ticket, s) =>
    { s with store := { s.store with failing := faults } }.perform (.move (.start ticket) [])
  | result => result

/-- A refreshment of the con up to its first request, by when the operations in `faults` fail. -/
def refresh (con : String) (faults : List StoreOperation) (s : Scene r) : Progress × Scene r :=
  join faults (s.perform (.move (.refresh con) faults))

/-- The con was activated without a request, and the operations in `faults` fail. -/
def activated (con : String) (faults : List StoreOperation) (s : Scene r) : Scene r :=
  ⟨{ s.store with failing := faults },
    { s.machine with sync := (s.sync.activate con s.store).2 }⟩

/-- The request that a reload makes after such an activation. -/
def firstRequest (con : String) (faults : List StoreOperation) (s : Scene r) : Flight :=
  (s.activated con faults).sync.request con (s.activated con faults).store

/-- That request is out, and nothing fails any more that has failed up to then. -/
def requesting (con : String) (faults : List StoreOperation) (s : Scene r) : Scene r :=
  ⟨s.store, ({ (s.activated con faults).machine with
    sync := (s.activated con faults).sync.begun con }.addJob
      (.fetching (s.firstRequest con faults))).2⟩

/-- The requests that a call makes whose first request gets the answer `first`. -/
def requests (first : Reply) : Progress × Scene r → List Flight
  | (.sent ticket f, s) =>
    f :: match s.reply ticket first with
      | (.sent _ g, _) => [g]
      | _ => []
  | _ => []

end Scene

/-! ## The request of a refreshment -/

theorem reload_of_selected {m : Machine r} (selected : m.sync.selected = some con)
    (store : Store) : m.reload store = (.sent m.nextTicket (m.sync.request con store),
      ({ m with sync := m.sync.begun con }.addJob (.fetching (m.sync.request con store))).2) := by
  unfold Machine.reload
  rw [issue_of_selected selected]
  rfl

/-- A reload that begins as soon as it was left to the background is one that has begun at once. -/
theorem start_addJob_queued {m : Machine r} (selected : m.sync.selected = some con)
    (store : Store) : (m.addJob .queued).2.start m.nextTicket store = m.reload store := by
  have queued : (m.addJob .queued).2.job? m.nextTicket = some .queued :=
    (Machine.job?_setJob _ _ _ _).trans (if_pos rfl)
  have selected' : (m.addJob .queued).2.sync.selected = some con := selected
  rw [reload_of_selected selected, Machine.start, queued]
  simp only [issue_of_selected selected']
  simp [Machine.addJob, Machine.setJob, Machine.eraseJob]

theorem selected_activate_sync (con : String) (store : Store) (y : Sync r) :
    (y.activate con store).2.selected = some con := by
  rcases activate_cases con store y with ⟨showing, h⟩ | ⟨-, -, h⟩ | ⟨_, _, -, -, h⟩
  · rw [h]
    exact (isShowing_iff.1 showing).1
  · rw [h]
    exact selected_select con y
  · rw [h]
    exact selected_select con y

/-- The machine of a refreshment is that of a reload after an activation without a request. -/
theorem refresh_eq_reload (m : Machine r) (con : String) (store : Store)
    (faults : List StoreOperation) :
    let m' := { m with sync := (m.sync.activate con store).2 }
    m.refresh con store faults = m'.reload { store with failing := faults } ∨
      m.refresh con store faults = (.joined m.nextTicket, (m'.addJob .queued).2) := by
  intro m'
  have selected : m'.sync.selected = some con := selected_activate_sync con store m.sync
  unfold Machine.refresh Machine.activate
  rcases activate_cases con store m.sync with ⟨-, h⟩ | ⟨-, -, h⟩ | ⟨value, etag, -, -, h⟩
  · left
    simp only [h, m']
  · left
    have reloads := reload_of_selected selected { store with failing := faults }
    simp only [h, m'] at reloads ⊢
    rw [reloads]
  · cases revalidated : m.sync.revalidated with
    | true =>
      left
      simp only [h, m', revalidated, Bool.not_true]
    | false =>
      right
      simp only [h, m', revalidated, Bool.not_false]
      rfl

/-- The request of a refreshment is that of a reload after an activation without a request, and it
leaves the same scene, but for what fails by then. -/
theorem scene_refresh (con : String) (faults : List StoreOperation) (s : Scene r) :
    let sent := Progress.sent s.machine.nextTicket (s.firstRequest con faults)
    let machine := (s.requesting con faults).machine
    (s.activated con faults).perform (.move .reload []) =
      (sent, ⟨{ s.store with failing := faults }, machine⟩) ∧
      (s.refresh con faults = (sent, ⟨s.store, machine⟩) ∨
        s.refresh con faults = (sent, ⟨{ s.store with failing := faults }, machine⟩)) := by
  intro sent machine
  let a := s.activated con faults
  have selected : a.machine.sync.selected = some con :=
    selected_activate_sync con s.store s.sync
  have reloads : a.machine.reload a.store = (sent, machine) := reload_of_selected selected a.store
  constructor
  · show ((a.machine.reload a.store).1, Scene.mk a.store (a.machine.reload a.store).2) = _
    rw [reloads]
    rfl
  · rcases refresh_eq_reload s.machine con s.store faults with reloaded | left_to_background
    · left
      have refreshed := reloaded.trans reloads
      simp only [Scene.refresh, Scene.perform, Machine.step, Machine.beside, refreshed]
      rfl
    · right
      have started := (start_addJob_queued selected a.store).trans reloads
      simp only [Scene.refresh, Scene.perform, Machine.step, Machine.beside, left_to_background,
        Scene.join]
      exact congrArg (fun result => (result.1, Scene.mk a.store result.2)) started

/-- So a refreshment by itself comes to the same as that reload. What fails before an answer comes
does not count when it has come. -/
theorem refresh_alone (con : String) (faults : List StoreOperation) (first second : Reply)
    (s : Scene r) :
    let call := s.refresh con faults
    let sent := (Progress.sent s.machine.nextTicket (s.firstRequest con faults),
      s.requesting con faults)
    Scene.complete first second call = Scene.complete first second sent ∧
      Scene.requests first call = Scene.requests first sent ∧
      (s.activated con faults).alone (.move .reload []) first second =
        Scene.complete first second sent := by
  intro call sent
  let failed : Progress × Scene r :=
    (sent.1, ⟨{ s.store with failing := faults }, sent.2.machine⟩)
  have complete : Scene.complete first second failed = Scene.complete first second sent := rfl
  have requests : Scene.requests first failed = Scene.requests first sent := rfl
  obtain ⟨reloads, refreshed⟩ := scene_refresh con faults s
  have reloaded : (s.activated con faults).alone (.move .reload []) first second =
      Scene.complete first second sent :=
    (congrArg (Scene.complete first second) reloads).trans complete
  rcases refreshed with refreshed | refreshed
  · exact ⟨congrArg _ refreshed, congrArg _ refreshed, reloaded⟩
  · exact ⟨(congrArg _ refreshed).trans complete, (congrArg _ refreshed).trans requests, reloaded⟩

theorem isLatest_firstRequest (con : String) (faults : List StoreOperation) (s : Scene r) :
    (s.requesting con faults).sync.isLatest (s.firstRequest con faults) = true :=
  isLatest_iff.2 rfl

/-- A request is made again if there was nothing to confirm. -/
theorem requests_sent {ticket : Nat} {f : Flight} (waited : s.Waits ticket f) (first : Reply) :
    let store := { s.store with failing := first.failing }
    ¬ ConfirmsNothing r f first.outcome store ∧
        Scene.requests first (.sent ticket f, s) = [f] ∨
      ConfirmsNothing r f first.outcome store ∧
        Scene.requests first (.sent ticket f, s) = [f, { f with etag := none }] := by
  intro store
  have waited : Scene.Waits ticket f { s with store } := waited
  obtain ⟨again, ends⟩ := progress_answer waited first.now first.outcome []
  simp only [Scene.requests]
  by_cases confirms : ConfirmsNothing r f first.outcome store
  · right
    have sent : (s.reply ticket first).1 = .sent ticket { f with etag := none } := again confirms
    generalize s.reply ticket first = result at sent
    obtain ⟨p, s'⟩ := result
    subst sent
    exact ⟨confirms, rfl⟩
  · left
    obtain ⟨reload, ended, -⟩ := ends confirms
    have ended : (s.reply ticket first).1 = .ended reload := ended
    generalize s.reply ticket first = result at ended
    obtain ⟨p, s'⟩ := result
    subst ended
    exact ⟨confirms, rfl⟩

/-! ## One reload -/

/-- No trigger waits, the ticket was the last one given out, and no reload but this one is under
way. -/
structure Lone (ticket : Nat) (jobs : List (Nat × Job)) (m : Machine r) : Prop where
  triggers : m.triggers = 0
  nextTicket : m.nextTicket = ticket + 1
  jobs : m.jobs = jobs

/-- The call waits for the answer to the one request that is out, or has come to its end. -/
inductive Single (ticket : Nat) : Progress × Scene r → Prop where
  | waits {f : Flight} {s : Scene r} (lone : Lone ticket [(ticket, .fetching f)] s.machine) :
      Single ticket (.sent ticket f, s)
  | ended {reload : Reload} {s : Scene r} (lone : Lone ticket [] s.machine) :
      Single ticket (.ended reload, s)

/-- The request of a refreshment is the only one if nothing was outstanding. -/
theorem lone_requesting (idle : s.machine.outstanding = 0) (con : String)
    (faults : List StoreOperation) :
    Lone s.machine.nextTicket [(s.machine.nextTicket, .fetching (s.firstRequest con faults))]
      (s.requesting con faults).machine := by
  unfold Machine.outstanding Machine.calls at idle
  have triggers : s.machine.triggers = 0 := by omega
  have jobs : s.machine.jobs = [] := List.length_eq_zero_iff.1 (by omega)
  refine ⟨triggers, rfl, ?_⟩
  simp [Scene.requesting, Machine.addJob, Machine.setJob, Machine.eraseJob, Scene.activated, jobs]

theorem Lone.waits {ticket : Nat} {f : Flight} (h : Lone ticket [(ticket, .fetching f)] s.machine) :
    s.Waits ticket f := by
  simp [Scene.Waits, Machine.job?, h.jobs]

theorem Lone.reply {ticket : Nat} {f : Flight} (h : Lone ticket [(ticket, .fetching f)] s.machine)
    (a : Reply) : Single ticket (s.reply ticket a) := by
  have waited : Scene.Waits ticket f { s with store := { s.store with failing := a.failing } } :=
    h.waits
  unfold Scene.reply
  rw [perform_answer waited]
  split
  · exact .ended ⟨h.triggers, h.nextTicket, by simp [Machine.endJob, Machine.eraseJob, h.jobs]⟩
  · exact .waits ⟨h.triggers, h.nextTicket, by simp [Machine.setJob, Machine.eraseJob, h.jobs]⟩

theorem Single.complete {ticket : Nat} {result : Progress × Scene r} (h : Single ticket result)
    (first second : Reply) : Single ticket (Scene.complete first second result) := by
  cases h with
  | ended lone => exact .ended lone
  | waits lone =>
    have replied := lone.reply first
    simp only [Scene.complete]
    generalize Scene.reply ticket first _ = result at replied
    cases replied with
    | waits lone => exact lone.reply second
    | ended lone => exact .ended lone

/-- **Refreshments.** Let a con be refreshed while nothing is outstanding, and let the call return
before anything else happens but the answers that it waits for. Whatever the store holds, one reload
is made, for this con. It makes one request, under the etag that the store has for the con, and the
same request again without its condition if and only if the first answer confirms what the cache
does not have by then. The call ends as this reload does, which is neither superseded nor without a
con; nothing is left to be done but the retry that a stale answer may call for; and everything is as
if the con had been activated without a request and then reloaded. -/
theorem refresh_goes_out_once (idle : s.machine.outstanding = 0) (con : String)
    (faults : List StoreOperation) (first second : Reply) :
    let call := s.refresh con faults
    ∃ f reload s', Scene.complete first second call = (.ended reload, s') ∧
      reload ≠ .superseded ∧ reload ≠ .noInstance ∧
      f.con = con ∧ f.etag = Cache.etag? r { s.store with failing := faults } con ∧
      (¬ ConfirmsNothing r f first.outcome { s.store with failing := first.failing } ∧
          Scene.requests first call = [f] ∨
        ConfirmsNothing r f first.outcome { s.store with failing := first.failing } ∧
          Scene.requests first call = [f, { f with etag := none }]) ∧
      s'.machine.nextTicket = s.machine.nextTicket + 1 ∧
      s'.machine.outstanding = s'.sync.isRetrying.toNat ∧
      (s.activated con faults).alone (.move .reload []) first second = (.ended reload, s') := by
  intro call
  obtain ⟨complete, requests, reloaded⟩ := refresh_alone con faults first second s
  have lone := lone_requesting idle con faults
  have waits : (s.requesting con faults).Waits s.machine.nextTicket (s.firstRequest con faults) :=
    lone.waits
  have selected : (s.requesting con faults).sync.selected = some con := selected_begun con _
  obtain ⟨reload, s', ended, concluded⟩ :=
    complete_sent waits (isLatest_firstRequest con faults s) selected first second
  have single : Single s.machine.nextTicket (.ended reload, s') :=
    ended ▸ (Single.waits lone).complete first second
  cases single with
  | ended lone =>
    refine ⟨_, reload, s', complete.trans ended, concluded.counts, concluded.begun, rfl, rfl,
      requests ▸ requests_sent waits first, lone.nextTicket, ?_, reloaded.trans ended⟩
    simp [Machine.outstanding, Machine.calls, lone.triggers, lone.jobs]

/-- What is cached of a con is shown, and its revalidation waited for. It is confirmed while the
store cannot be read, so that the request is made again, and the server fails. -/
theorem cached_con_is_refreshed_once :
    let start : Scene .pages := .new .standard
      { kind := .database, records := ({} : Records).insert (Cache.recordKey "pages")
          (Cache.recordText .pages "a" [] (some "v1")) }
    let first : Reply := ⟨1, .notModified, [.get]⟩
    let second : Reply := ⟨2, .error 500, [.get]⟩
    let call := start.refresh "a" []
    start.machine.outstanding = 0 ∧ start.progress (.move (.refresh "a") []) = .joined 0 ∧
      Scene.requests first call = [⟨"a", 2, some "v1"⟩, ⟨"a", 2, none⟩] ∧
      ∃ s', Scene.complete first second call = (.ended (.failed 500), s') ∧
        s'.machine.outstanding = 0 ∧ s'.sync.status = .success := by
  intro start first second call
  have idle : start.machine.outstanding = 0 := rfl
  obtain ⟨f, reload, s', ended, -, -, -, -, -, -, left, -⟩ :=
    refresh_goes_out_once idle "a" [] first second
  have failed : (Scene.complete first second call).1 = .ended (.failed 500) := by decide
  have quiet : (Scene.complete first second call).2.sync.isRetrying = false := by decide
  have success : (Scene.complete first second call).2.sync.status = .success := by decide
  rw [ended] at failed quiet success
  cases failed
  exact ⟨idle, by decide, by decide, s', ended, by rw [left, quiet]; rfl, success⟩

end OfflineSchedule.Sync
