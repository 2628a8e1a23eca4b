import Mathlib.Data.Nat.Find
import OfflineSchedule.Proofs.Sync.Refresh
/-!
# Retries in time

Against a server that takes everything it answers for outdated, a reload is followed by as many
retries as the policy has attempts. Who makes them is spread over the synchronizer: a stale answer
starts the timer, the timer leaves a trigger, the retry loop takes it up and makes the request,
which stops the timer and keeps the count. Between two requests the synchronizer goes through the
phases of `Phase`, and each move that is due leads from one to the next, so that their number is
known from the beginning.

Time passes only while nothing is due: what is due at a moment happens at that moment, in any order.
-/

namespace OfflineSchedule

open Http (Outcome)
open Json (Value)
open Relation (ReflTransGen)
open Retry (Moment Policy)

namespace Retry.Policy

variable (p : Policy)

/-- How long after a reload its retry number `k` is made, if all answers are stale. -/
def elapsed : Nat → Nat
  | 0 => 0
  | k + 1 => elapsed k + (p.delayFor (k + 1)).nanos

/-- When a reload and all its retries are made, the reload at `start`. -/
def series (start : Moment) : List Moment :=
  (List.range (p.maxAttempts + 1)).map fun k => start + p.elapsed k

theorem elapsed_mono {j k : Nat} (h : j ≤ k) : p.elapsed j ≤ p.elapsed k := by
  induction h with
  | refl => exact Nat.le_refl _
  | step _ ih => exact Nat.le_trans ih (Nat.le_add_right _ _)

/-- The series up to retry number `k`, and the rest of it. -/
theorem series_eq (start : Moment) {k : Nat} (le : k ≤ p.maxAttempts) :
    p.series start = (List.range (k + 1)).map (start + p.elapsed ·) ++
      (List.range (p.maxAttempts - k)).map fun j => start + p.elapsed (k + 1 + j) := by
  have split : p.maxAttempts + 1 = k + 1 + (p.maxAttempts - k) := by omega
  rw [series, split, List.range_add, List.map_append, List.map_map]
  rfl

/-- The moments that have come are those of the first retries. -/
theorem filter_series {start now : Moment} {k : Nat} (le : k ≤ p.maxAttempts)
    (come : start + p.elapsed k ≤ now)
    (ahead : k < p.maxAttempts → now < start + p.elapsed (k + 1)) :
    (p.series start).filter (· ≤ now) = (List.range (k + 1)).map (start + p.elapsed ·) := by
  have first : ∀ j < k + 1, start + p.elapsed j ≤ now := fun j hj =>
    Nat.le_trans (Nat.add_le_add_left (p.elapsed_mono (Nat.le_of_lt_succ hj)) _) come
  have others : ∀ j < p.maxAttempts - k, now < start + p.elapsed (k + 1 + j) := fun j hj =>
    Nat.lt_of_lt_of_le (ahead (by omega))
      (Nat.add_le_add_left (p.elapsed_mono (Nat.le_add_right _ _)) _)
  rw [p.series_eq start le, List.filter_append, List.filter_eq_self.2, List.filter_eq_nil_iff.2,
    List.append_nil]
  · simpa using others
  · simpa [Nat.lt_succ_iff] using first

end Retry.Policy

namespace Sync

variable {r : Resource} {s : Scene r} {con : String}

/-! ## Steps of the retries -/

/-- While no other reload is under way, the one that is added is alone. -/
theorem jobs_addJob {m : Machine r} (jobs : m.jobs = []) (j : Job) :
    (m.addJob j).2.jobs = [(m.nextTicket, j)] := by
  simp [Machine.addJob, Machine.setJob, Machine.eraseJob, jobs]

theorem perform_stale_answer {ticket : Nat} {f : Flight} {payload : Value} {value : r.Live}
    (waited : s.Waits ticket f) (latest : f.number = s.sync.issued)
    (decoded : r.liveOfValue payload = .ok value) (now : Moment) (etag : Option String)
    (faults : List StoreOperation) :
    s.perform (.move (.answer ticket now (.success payload etag true)) faults) =
      (.ended (.updated true), ⟨s.store, { s.machine with
        sync := s.sync.receive s.machine.policy now f value etag true }.endJob ticket⟩) := by
  rw [perform_answer waited]
  simp [answer, decoded, isLatest_iff.2 latest]

theorem perform_fire (pending : s.sync.isRetrying = true) (faults : List StoreOperation) :
    s.perform (.move .fire faults) = (.done, ⟨s.store, { s.machine with
      sync := { s.sync with retry := s.sync.retry.cancelPending }
      triggers := s.machine.triggers + 1 }⟩) := by
  have pending : s.machine.sync.isRetrying = true := pending
  simp [Scene.perform, Machine.step, Machine.beside, Machine.fire, pending]

theorem perform_reload (selected : s.sync.selected = some con) (faults : List StoreOperation) :
    s.perform (.move .reload faults) =
      (.sent s.machine.nextTicket (s.sync.request con s.store), ⟨s.store,
        ({ s.machine with sync := s.sync.begun con }.addJob
          (.fetching (s.sync.request con s.store))).2⟩) :=
  congrArg (fun result => (result.1, Scene.mk s.store result.2))
    (reload_of_selected selected s.store)

theorem perform_retry (free : s.machine.loop = none) (waiting : s.machine.triggers ≠ 0)
    (selected : s.sync.selected = some con) (faults : List StoreOperation) :
    s.perform (.move .retry faults) =
      (.sent s.machine.nextTicket (s.sync.request con s.store), ⟨s.store,
        { ({ s.machine with sync := s.sync.begun con, triggers := s.machine.triggers - 1 }.addJob
            (.fetching (s.sync.request con s.store))).2 with
          loop := some s.machine.nextTicket }⟩) := by
  have selected : s.machine.sync.selected = some con := selected
  simp [Scene.perform, Machine.step, Machine.beside, Machine.retry, Machine.reload, free, waiting,
    issue_of_selected selected, Machine.addJob]

/-! ## Time -/

/-- The request that a move has made. -/
def Progress.flight? : Progress → Option Flight
  | .sent _ f => some f
  | _ => none

/-- A server that takes everything it answers for outdated. -/
structure StaleServer (r : Resource) where
  payload : Moment → Flight → Value
  etag : Moment → Flight → Option String
  decodes : ∀ now f, ∃ value, r.liveOfValue (payload now f) = .ok value

def StaleServer.answer (server : StaleServer r) (now : Moment) (f : Flight) : Outcome Value :=
  .success (server.payload now f) (server.etag now f) true

/-- The moves that are due at a moment. -/
inductive Due (server : StaleServer r) (now : Moment) (s : Scene r) : Move → Prop where
  | answer {ticket : Nat} {f : Flight} (waits : s.Waits ticket f) :
      Due server now s (.answer ticket now (server.answer now f))
  | start {ticket : Nat} (queued : s.machine.job? ticket = some .queued) :
      Due server now s (.start ticket)
  | fire (ended : s.sync.retry.isDue now = true) : Due server now s .fire
  | retry (free : s.machine.loop = none) (waiting : s.machine.triggers ≠ 0) :
      Due server now s .retry

/-- A scene at a moment, with the requests that were made, each with its moment. -/
structure Timed (r : Resource) where
  now : Moment := 0
  scene : Scene r
  requests : List (Moment × Flight) := []

namespace Timed

def perform (e : Event) (t : Timed r) : Timed r where
  now := t.now
  scene := t.scene.next e
  requests := t.requests ++ (t.scene.progress e).flight?.toList.map (t.now, ·)

theorem perform_eq {t : Timed r} {e : Event} {p : Progress} {s : Scene r}
    (performed : t.scene.perform e = (p, s)) :
    t.perform e = ⟨t.now, s, t.requests ++ p.flight?.toList.map (t.now, ·)⟩ := by
  simp [perform, Scene.next, Scene.progress, performed]

/-- Nothing is due. -/
def Quiet (server : StaleServer r) (t : Timed r) : Prop := ∀ m, ¬ Due server t.now t.scene m

/-- What is due happens, in any order, and time passes only while nothing is due. -/
inductive Step (server : StaleServer r) : Timed r → Timed r → Prop where
  | due {t : Timed r} {m : Move} (due : Due server t.now t.scene m)
      (faults : List StoreOperation) : Step server t (t.perform (.move m faults))
  | wait {t : Timed r} {later : Moment} (le : t.now ≤ later)
      (quiet : ∀ now, t.now ≤ now → now < later → Quiet server { t with now }) :
      Step server t { t with now := later }

abbrev Steps (server : StaleServer r) : Timed r → Timed r → Prop := ReflTransGen (Step server)

end Timed

/-! ## Phases -/

variable (server : StaleServer r) (policy : Policy) (store : Store) (con : String)

/-- No reload is under way, and this many triggers wait for the retry loop. -/
structure Idle (triggers : Nat) (m : Machine r) : Prop where
  jobs : m.jobs = []
  loop : m.loop = none
  triggers : m.triggers = triggers

/-- The answer to the last request is on display. -/
def ShowsLast (t : Timed r) : Prop :=
  ∃ moment f value, t.requests.getLast? = some (moment, f) ∧
    r.liveOfValue (server.payload moment f) = .ok value ∧
    t.scene.sync.current = .success value (server.etag moment f)

/-- The last request, of the `k`-th retry of a reload at `start`, has not been answered yet. -/
structure Unanswered (start : Moment) (k ticket : Nat) (f : Flight) (t : Timed r) : Prop where
  jobs : t.scene.machine.jobs = [(ticket, .fetching f)]
  loop : ∀ k, t.scene.machine.loop = some k → k = ticket
  triggers : t.scene.machine.triggers = 0
  about : f.con = con
  latest : f.number = t.scene.sync.issued
  noted : t.requests.getLast? = some (t.now, f)
  retry : t.scene.sync.retry = ⟨k, none⟩
  now : t.now = start + policy.elapsed k

/-- Where the synchronizer is when a reload at `start` has been retried `k` times. As many moves as
`left` are due from now on. -/
inductive Phase (start : Moment) (k : Nat) (t : Timed r) : (left : Nat) → Prop where
  | unanswered {ticket : Nat} {f : Flight} (unanswered : Unanswered policy con start k ticket f t) :
      Phase start k t (3 * (policy.maxAttempts - k) + 1)
  /-- The timer of the next retry runs. -/
  | resting (next : k < policy.maxAttempts) (idle : Idle 0 t.scene.machine)
      (shows : ShowsLast server t)
      (retry : t.scene.sync.retry = ⟨k + 1, some (start + policy.elapsed (k + 1))⟩)
      (since : start + policy.elapsed k ≤ t.now) (ahead : t.now ≤ start + policy.elapsed (k + 1)) :
      Phase start k t (3 * (policy.maxAttempts - k))
  /-- The next retry is due. -/
  | triggered (next : k < policy.maxAttempts) (idle : Idle 1 t.scene.machine)
      (retry : t.scene.sync.retry = ⟨k + 1, none⟩)
      (now : t.now = start + policy.elapsed (k + 1)) :
      Phase start k t (3 * (policy.maxAttempts - k) - 1)
  /-- There is no other retry. -/
  | spent (last : k = policy.maxAttempts) (idle : Idle 0 t.scene.machine)
      (shows : ShowsLast server t) (retry : t.scene.sync.retry = {})
      (since : start + policy.elapsed k ≤ t.now) : Phase start k t 0

/-- What was requested since `t₀`: the con, at the first `count` moments of the series. -/
def FollowsSeries (t₀ : Timed r) (count : Nat) (requests : List (Moment × Flight)) : Prop :=
  ∃ made, requests = t₀.requests ++ made ∧
    made.map (·.1) = (List.range count).map (t₀.now + policy.elapsed ·) ∧
    ∀ q ∈ made, q.2.con = con

/-- A reload that was caused at `t₀` has been retried `k` times by now, and `left` moves are due
from now on. -/
structure Retried (t₀ : Timed r) (k left : Nat) (t : Timed r) : Prop where
  policy_eq : t.scene.machine.policy = policy
  store_eq : t.scene.store = store
  selected : t.scene.sync.selected = some con
  le : k ≤ policy.maxAttempts
  asked : FollowsSeries policy con t₀ (k + 1) t.requests
  phase : Phase server policy con t₀.now k t left

variable {server policy store con} {t₀ t u : Timed r} {k left : Nat}

/-- The request of a reload that has just begun. -/
theorem Retried.of_sent {e : Event} {m : Machine r} {y : Sync r} {seen : Store} {ticket : Nat}
    (performed : t.scene.perform e = (.sent ticket (y.request con seen), ⟨t.scene.store, m⟩))
    (asked : FollowsSeries policy con t₀ k t.requests) (le : k ≤ policy.maxAttempts)
    (now : t.now = t₀.now + policy.elapsed k) (store_eq : t.scene.store = store)
    (policy_eq : m.policy = policy) (sync : m.sync = y.begun con)
    (attempt : (y.select con).retry.attempt = k)
    (jobs : m.jobs = [(ticket, .fetching (y.request con seen))])
    (loop : ∀ k, m.loop = some k → k = ticket) (triggers : m.triggers = 0) :
    Retried server policy store con t₀ k (3 * (policy.maxAttempts - k) + 1) (t.perform e) := by
  rw [Timed.perform_eq performed]
  obtain ⟨made, requests, moments, about⟩ := asked
  refine ⟨policy_eq, store_eq, ?_, le, ⟨made ++ [(t.now, y.request con seen)], ?_, ?_, ?_⟩, ?_⟩
  · show m.sync.selected = some con
    rw [sync]
    exact selected_begun con y
  · simp [Progress.flight?, requests]
  · simp [moments, List.range_succ, now]
  · intro q mem
    rcases List.mem_append.1 mem with mem | mem
    · exact about q mem
    · obtain rfl := List.mem_singleton.1 mem
      rfl
  · refine .unanswered ⟨jobs, loop, triggers, rfl, ?_, ?_, ?_, now⟩
    · show (y.request con seen).number = m.sync.issued
      rw [sync]
      rfl
    · simp [Progress.flight?]
    · show m.sync.retry = ⟨k, none⟩
      rw [sync, ← attempt]
      rfl

/-! ## From one phase to the next -/

/-- While no reload is under way, the timer may end and a trigger may be taken up. -/
theorem Due.of_idle {now : Moment} {m : Move} {triggers : Nat} (due : Due server now s m)
    (idle : Idle triggers s.machine) :
    m = .fire ∧ s.sync.retry.isDue now = true ∨ m = .retry ∧ triggers ≠ 0 := by
  have nobody : ∀ ticket, s.machine.job? ticket = none := by simp [Machine.job?, idle.jobs]
  cases due with
  | answer waits => simp [Scene.Waits, nobody] at waits
  | start queued => simp [nobody] at queued
  | fire ended => exact .inl ⟨rfl, ended⟩
  | retry _ waiting => exact .inr ⟨rfl, idle.triggers ▸ waiting⟩

/-- While no timer runs either, nothing is due. -/
theorem Idle.not_due {now : Moment} (idle : Idle 0 s.machine) (retry : s.sync.retry = {})
    (m : Move) : ¬ Due server now s m := by
  intro due
  rcases due.of_idle idle with ⟨-, ended⟩ | ⟨-, triggered⟩
  · simp [retry, Retry.Scheduler.isDue] at ended
  · exact absurd rfl triggered

theorem Unanswered.waits {start : Moment} {ticket : Nat} {f : Flight}
    (h : Unanswered policy con start k ticket f t) : t.scene.Waits ticket f := by
  simp [Scene.Waits, Machine.job?, h.jobs]

/-- While a request is out, its answer is what is due. -/
theorem Unanswered.due {start : Moment} {m : Move} {ticket : Nat} {f : Flight}
    (h : Unanswered policy con start k ticket f t) (due : Due server t.now t.scene m) :
    m = .answer ticket t.now (server.answer t.now f) := by
  have alone : ∀ k j, t.scene.machine.job? k = some j → k = ticket ∧ j = .fetching f := by
    intro k j job
    by_cases hk : ticket = k <;> simp_all [Machine.job?, h.jobs]
  cases due with
  | answer waits =>
    obtain ⟨rfl, same⟩ := alone _ _ waits
    cases same
    rfl
  | start queued => exact absurd (alone _ _ queued).2 (by simp)
  | fire ended => simp [Retry.Scheduler.isDue, h.retry] at ended
  | retry _ waiting => exact absurd h.triggers waiting

/-- The answer is shown, and the scheduler is told that it is stale. -/
theorem Unanswered.answered {start : Moment} {ticket : Nat} {f : Flight}
    (h : Unanswered policy con start k ticket f t) (selected : t.scene.sync.selected = some con)
    (faults : List StoreOperation) :
    ∃ m, t.perform (.move (.answer ticket t.now (server.answer t.now f)) faults) =
        ⟨t.now, ⟨t.scene.store, m⟩, t.requests⟩ ∧ Idle 0 m ∧ m.policy = t.scene.machine.policy ∧
      m.sync.selected = some con ∧
      m.sync.retry = (Retry.Scheduler.onStale t.scene.machine.policy t.now ⟨k, none⟩).2 ∧
      ShowsLast server ⟨t.now, ⟨t.scene.store, m⟩, t.requests⟩ := by
  obtain ⟨value, decoded⟩ := server.decodes t.now f
  have performed := perform_stale_answer h.waits h.latest decoded t.now (server.etag t.now f) faults
  let sync := t.scene.sync.receive t.scene.machine.policy t.now f value (server.etag t.now f) true
  refine ⟨{ t.scene.machine with sync }.endJob ticket, (Timed.perform_eq performed).trans ?_,
    ⟨?_, ?_, h.triggers⟩, rfl, selected, ?_, t.now, f, value, h.noted, decoded, ?_⟩
  · simp [Progress.flight?, sync]
  · simp [Machine.endJob, Machine.eraseJob, h.jobs]
  · simpa [Machine.endJob, Option.filter_eq_none_iff] using h.loop
  · exact congrArg (fun q => (Retry.Scheduler.onStale t.scene.machine.policy t.now q).2) h.retry
  · have owner : some f.con = t.scene.sync.selected := by rw [h.about, selected]
    exact if_pos owner

namespace Retried

/-- The answer to a request starts the timer of the next retry, or there is none. -/
theorem answer {ticket : Nat} {f : Flight} (h : Retried server policy store con t₀ k left t)
    (unanswered : Unanswered policy con t₀.now k ticket f t) (faults : List StoreOperation) :
    Retried server policy store con t₀ k (3 * (policy.maxAttempts - k))
      (t.perform (.move (.answer ticket t.now (server.answer t.now f)) faults)) := by
  obtain ⟨m, after, idle, policy_eq, selected, retry, shows⟩ :=
    unanswered.answered h.selected faults
  have since := Nat.le_of_eq unanswered.now.symm
  rw [h.policy_eq] at policy_eq retry
  rw [after]
  refine ⟨policy_eq, h.store_eq, selected, h.le, h.asked, ?_⟩
  rcases Nat.lt_or_eq_of_le h.le with next | last
  · rw [Retry.Scheduler.onStale_next next, unanswered.now, Nat.add_assoc] at retry
    have ahead := Nat.add_le_add_left (policy.elapsed_mono (Nat.le_succ k)) t₀.now
    exact .resting next idle shows retry since (unanswered.now ▸ ahead)
  · rw [Retry.Scheduler.onStale_spent (Nat.le_of_eq last.symm)] at retry
    rw [last, Nat.sub_self]
    exact .spent rfl idle shows retry (last ▸ since)

/-- The timer leaves a trigger. -/
theorem fire (h : Retried server policy store con t₀ k left t) (next : k < policy.maxAttempts)
    (idle : Idle 0 t.scene.machine)
    (retry : t.scene.sync.retry = ⟨k + 1, some (t₀.now + policy.elapsed (k + 1))⟩)
    (now : t.now = t₀.now + policy.elapsed (k + 1)) (faults : List StoreOperation) :
    Retried server policy store con t₀ k (3 * (policy.maxAttempts - k) - 1)
      (t.perform (.move .fire faults)) := by
  have pending : t.scene.sync.isRetrying = true := by
    simp [isRetrying, retry, Retry.Scheduler.isPending]
  rw [Timed.perform_eq (perform_fire pending faults)]
  refine ⟨h.policy_eq, h.store_eq, h.selected, h.le, by simpa [Progress.flight?] using h.asked, ?_⟩
  refine .triggered next ⟨idle.jobs, idle.loop, congrArg (· + 1) idle.triggers⟩ ?_ now
  exact congrArg Retry.Scheduler.cancelPending retry

/-- The retry loop takes up the trigger and makes the next request. -/
theorem retry (h : Retried server policy store con t₀ k left t) (next : k < policy.maxAttempts)
    (idle : Idle 1 t.scene.machine) (retry : t.scene.sync.retry = ⟨k + 1, none⟩)
    (now : t.now = t₀.now + policy.elapsed (k + 1)) (faults : List StoreOperation) :
    Retried server policy store con t₀ (k + 1) (3 * (policy.maxAttempts - (k + 1)) + 1)
      (t.perform (.move .retry faults)) := by
  have performed := perform_retry idle.loop (by simp [idle.triggers]) h.selected faults
  refine of_sent performed h.asked next now h.store_eq h.policy_eq rfl ?_ ?_ ?_ ?_
  · rw [select_of_selected h.selected, retry]
  · exact jobs_addJob idle.jobs _
  · simp
  · exact congrArg (· - 1) idle.triggers

/-- Each move that is due leaves one less. -/
theorem due {m : Move} (h : Retried server policy store con t₀ k left t)
    (due : Due server t.now t.scene m) (faults : List StoreOperation) :
    ∃ k' left', left = left' + 1 ∧
      Retried server policy store con t₀ k' left' (t.perform (.move m faults)) := by
  cases h.phase with
  | unanswered unanswered =>
    rw [unanswered.due due]
    exact ⟨k, _, rfl, h.answer unanswered faults⟩
  | resting next idle _ retry _ ahead =>
    obtain ⟨rfl, ended⟩ := (due.of_idle idle).resolve_right (by simp)
    have now : t.now = t₀.now + policy.elapsed (k + 1) := by
      simp only [Retry.Scheduler.isDue, retry, Option.any_some, decide_eq_true_eq] at ended
      exact Nat.le_antisymm ahead ended
    exact ⟨k, _, by omega, h.fire next idle retry now faults⟩
  | triggered next idle retry now =>
    obtain ⟨rfl, -⟩ := (due.of_idle idle).resolve_left (by simp [retry, Retry.Scheduler.isDue])
    exact ⟨k + 1, _, by omega, h.retry next idle retry now faults⟩
  | spent _ idle _ retry => exact absurd due (idle.not_due retry _)

/-- When nothing is due, the last answer is shown, and the next retry is ahead or there is none. -/
theorem of_quiet (h : Retried server policy store con t₀ k left t) (quiet : t.Quiet server) :
    t₀.now + policy.elapsed k ≤ t.now ∧
      (k < policy.maxAttempts → t.now < t₀.now + policy.elapsed (k + 1)) ∧ ShowsLast server t ∧
      (k = policy.maxAttempts → Idle 0 t.scene.machine ∧ t.scene.sync.retry = {}) := by
  cases h.phase with
  | unanswered unanswered => exact absurd (Due.answer unanswered.waits) (quiet _)
  | resting next _ shows retry since _ =>
    refine ⟨since, fun _ => ?_, shows, fun last => absurd last (Nat.ne_of_lt next)⟩
    refine Nat.lt_of_not_le fun ended => quiet _ (.fire ?_)
    simpa [Retry.Scheduler.isDue, retry] using ended
  | triggered _ idle => exact absurd (Due.retry idle.loop (by simp [idle.triggers])) (quiet _)
  | spent last idle shows retry since =>
    exact ⟨since, fun next => absurd last (Nat.ne_of_lt next), shows, fun _ => ⟨idle, retry⟩⟩

/-- Time passes up to the end of the timer. -/
theorem wait {later : Moment} (h : Retried server policy store con t₀ k left t)
    (le : t.now ≤ later)
    (quiet : ∀ now, t.now ≤ now → now < later → Timed.Quiet server { t with now }) :
    Retried server policy store con t₀ k left { t with now := later } := by
  rcases Nat.lt_or_eq_of_le le with lt | rfl
  · refine ⟨h.policy_eq, h.store_eq, h.selected, h.le, h.asked, ?_⟩
    have quiet_now : t.Quiet server := quiet t.now (Nat.le_refl _) lt
    cases h.phase with
    | unanswered unanswered => exact absurd (Due.answer unanswered.waits) (quiet_now _)
    | resting next idle shows retry since ahead =>
      refine .resting next idle shows retry (Nat.le_trans since le)
        (Nat.le_of_not_lt fun past => ?_)
      refine quiet _ ahead past _ (.fire ?_)
      simp [Retry.Scheduler.isDue, retry]
    | triggered _ idle =>
      exact absurd (Due.retry idle.loop (by simp [idle.triggers])) (quiet_now _)
    | spent last idle shows retry since =>
      exact .spent last idle shows retry (Nat.le_trans since le)
  · exact h

/-- Time does not stop: what is due ends, and any later moment comes. -/
theorem exists_steps {later : Moment} (h : Retried server policy store con t₀ k left t)
    (le : t.now ≤ later) :
    ∃ u, Timed.Steps server t u ∧ u.now = later ∧ u.Quiet server := by
  classical
  induction left using Nat.strongRecOn generalizing k t with
  | ind left ih =>
    by_cases busy : ∃ now, t.now ≤ now ∧ now ≤ later ∧ ¬ Timed.Quiet server { t with now }
    · -- Up to the first moment at which something is due, time passes. What is due leaves one
      -- move less.
      obtain ⟨since, before_end, busy_now⟩ := Nat.find_spec busy
      have quiet : ∀ now, t.now ≤ now → now < Nat.find busy → Timed.Quiet server { t with now } :=
        fun now ge lt => Decidable.by_contra fun due =>
          Nat.find_min busy lt ⟨ge, Nat.le_trans (Nat.le_of_lt lt) before_end, due⟩
      obtain ⟨m, due⟩ : ∃ m, Due server (Nat.find busy) t.scene m := by
        simpa [Timed.Quiet] using busy_now
      obtain ⟨k', left', rfl, h'⟩ := (h.wait since quiet).due due []
      obtain ⟨u, steps, now, quiet_end⟩ := ih left' (Nat.lt_succ_self _) h' before_end
      exact ⟨u, .head (.wait since quiet) (.head (.due due []) steps), now, quiet_end⟩
    · have quiet : ∀ now, t.now ≤ now → now ≤ later → Timed.Quiet server { t with now } :=
        fun now ge le => Decidable.by_contra fun due => busy ⟨now, ge, le, due⟩
      exact ⟨_, .single (.wait le fun now ge lt => quiet now ge (Nat.le_of_lt lt)), rfl,
        quiet later le (Nat.le_refl _)⟩

end Retried

/-! ## A con that is reloaded by hand -/

variable (server policy store con) in
/-- A new synchronizer activates the con at moment 0, and is asked for nothing else but reloads,
each when all retries have been made. `t₀` is when the last of these calls was made. -/
inductive Attended : (t₀ t : Timed r) → Prop where
  | activated (faults : List StoreOperation) : Attended { scene := .new policy store }
      (Timed.perform (.move (.activate con) faults) { scene := .new policy store })
  | step {t₀ t u : Timed r} (attended : Attended t₀ t) (step : Timed.Step server t u) :
      Attended t₀ u
  | reloaded {t₀ t : Timed r} (attended : Attended t₀ t)
      (after : t₀.now + policy.elapsed policy.maxAttempts ≤ t.now) (quiet : t.Quiet server)
      (faults : List StoreOperation) : Attended t (t.perform (.move .reload faults))

theorem Attended.steps (h : Attended server policy store con t₀ t)
    (steps : Timed.Steps server t u) : Attended server policy store con t₀ u := by
  induction steps with
  | refl => exact h
  | tail _ step ih => exact ih.step step

theorem asked_nothing : FollowsSeries policy con t 0 t.requests := ⟨[], by simp, rfl, nofun⟩

theorem retried_activated (unusable : Cache.usable? r store con = none)
    (faults : List StoreOperation) :
    Retried server policy store con { scene := .new policy store } 0 (3 * policy.maxAttempts + 1)
      (Timed.perform (.move (.activate con) faults) { scene := .new policy store }) := by
  rcases activate_cases con store ({} : Sync r) with
    ⟨showing, -⟩ | ⟨-, -, activated⟩ | ⟨_, _, -, usable, -⟩
  · simp [isShowing] at showing
  · let f := ({} : Sync r).request con { store with failing := faults }
    have performed : Scene.perform (.move (.activate con) faults) (.new policy store) =
        (.sent 0 f, ⟨store, ({ policy, sync := ({} : Sync r).begun con : Machine r }.addJob
          (.fetching f)).2⟩) := by
      simp [Scene.perform, Machine.step, Machine.beside, Machine.activate, Scene.new, activated,
        Machine.reload, issue_select, Machine.addJob, f]
    have unlooped : ∀ k, (none : Option Nat) = some k → k = 0 := by simp
    exact .of_sent performed asked_nothing (Nat.zero_le _) rfl rfl rfl rfl rfl (jobs_addJob rfl _)
      unlooped rfl
  · simp [unusable] at usable

theorem Retried.reloaded (h : Retried server policy store con t₀ k left t)
    (idle : Idle 0 t.scene.machine) (retry : t.scene.sync.retry = {})
    (faults : List StoreOperation) :
    Retried server policy store con t 0 (3 * policy.maxAttempts + 1)
      (t.perform (.move .reload faults)) := by
  refine .of_sent (perform_reload h.selected faults) asked_nothing (Nat.zero_le _) rfl h.store_eq
    h.policy_eq rfl ?_ ?_ ?_ ?_
  · rw [select_of_selected h.selected, retry]
  · exact jobs_addJob idle.jobs _
  · intro k busy
    exact absurd (idle.loop.symm.trans busy) (by simp)
  · exact idle.triggers

/-- Once the moment of the last retry has passed, there is none left. -/
theorem Retried.spent (h : Retried server policy store con t₀ k left t)
    (after : t₀.now + policy.elapsed policy.maxAttempts ≤ t.now) (quiet : t.Quiet server) :
    k = policy.maxAttempts := by
  obtain ⟨-, ahead, -⟩ := h.of_quiet quiet
  refine Nat.le_antisymm h.le (Nat.le_of_not_lt fun next => ?_)
  have le := Nat.add_le_add_left (policy.elapsed_mono (Nat.succ_le_of_lt next)) t₀.now
  exact Nat.not_lt.2 (Nat.le_trans le after) (ahead next)

/-- After the moment of the last retry nothing is due any more. -/
theorem Retried.quiet_of_past (h : Retried server policy store con t₀ k left t)
    (past : t₀.now + policy.elapsed policy.maxAttempts < t.now) : t.Quiet server := by
  have early : ∀ j ≤ policy.maxAttempts, ¬ t.now ≤ t₀.now + policy.elapsed j := fun j le now =>
    Nat.not_lt.2 (Nat.le_trans now (Nat.add_le_add_left (policy.elapsed_mono le) _)) past
  intro m due
  cases h.phase with
  | unanswered unanswered => exact early k h.le (Nat.le_of_eq unanswered.now)
  | resting next _ _ _ _ ahead => exact early (k + 1) next ahead
  | triggered next _ _ now => exact early (k + 1) next (Nat.le_of_eq now)
  | spent _ idle _ retry => exact absurd due (idle.not_due retry _)

theorem Attended.retried (unusable : Cache.usable? r store con = none)
    (h : Attended server policy store con t₀ t) :
    ∃ k left, Retried server policy store con t₀ k left t := by
  induction h with
  | activated faults => exact ⟨0, _, retried_activated unusable faults⟩
  | step _ step ih =>
    obtain ⟨k, left, retried⟩ := ih
    cases step with
    | due due faults =>
      obtain ⟨k', left', -, retried'⟩ := retried.due due faults
      exact ⟨k', left', retried'⟩
    | wait le quiet => exact ⟨k, left, retried.wait le quiet⟩
  | reloaded _ after quiet faults ih =>
    obtain ⟨k, left, retried⟩ := ih
    obtain ⟨idle, retry⟩ := (retried.of_quiet quiet).2.2.2 (retried.spent after quiet)
    exact ⟨0, _, retried.reloaded idle retry faults⟩

/-- **Retries in time.** Let a new synchronizer activate a con that the cache has nothing usable of,
against a server whose answers come at once and are all stale, and let the con be reloaded by hand
whenever all retries have been made. The activation and each reload are the first of a series of
requests for the con, the others being the retries, each at its delay after the one before; there
are as many retries as attempts, and when nothing is due the requests of the series whose moments
have come have been made. The store stays as it is. After the last request of a series no retry is
pending, and its answer is on display. Time can always go on. -/
theorem stale_answers_back_off (unusable : Cache.usable? r store con = none)
    (attended : Attended server policy store con t₀ t) :
    (∃ made, t.requests = t₀.requests ++ made ∧ (∀ q ∈ made, q.2.con = con) ∧
      made.map (·.1) <+: policy.series t₀.now ∧
      (t.Quiet server → made.map (·.1) = (policy.series t₀.now).filter (· ≤ t.now))) ∧
    t.scene.store = store ∧
    (t₀.now + policy.elapsed policy.maxAttempts < t.now → t.Quiet server) ∧
    (t.Quiet server → t₀.now + policy.elapsed policy.maxAttempts ≤ t.now →
      t.scene.sync.isRetrying = false ∧ ShowsLast server t) ∧
    ∀ later, t.now ≤ later → ∃ u, Timed.Steps server t u ∧ u.now = later ∧ u.Quiet server := by
  obtain ⟨k, left, retried⟩ := attended.retried unusable
  obtain ⟨made, requests, moments, about⟩ := retried.asked
  refine ⟨⟨made, requests, about, ?_, fun quiet => ?_⟩, retried.store_eq, fun past => ?_,
    fun quiet after => ?_, fun later => retried.exists_steps⟩
  · rw [moments, policy.series_eq t₀.now retried.le]
    exact List.prefix_append _ _
  · obtain ⟨come, ahead, -⟩ := retried.of_quiet quiet
    rw [moments, policy.filter_series retried.le come ahead]
  · exact retried.quiet_of_past past
  · obtain ⟨-, -, shows, last⟩ := retried.of_quiet quiet
    obtain ⟨-, retry⟩ := last (retried.spent after quiet)
    exact ⟨by simp [isRetrying, retry, Retry.Scheduler.isPending], shows⟩

/-- Two retries follow an activation, and two a reload that is made later. -/
theorem six_requests_for_stale_pages :
    let policy : Policy := ⟨.clamp 1000, 2⟩
    let store : Store := { kind := .database }
    let server : StaleServer .pages := ⟨fun _ _ => .array [], fun _ _ => none, fun _ _ => ⟨[], rfl⟩⟩
    Cache.usable? .pages store "a" = none ∧
      ∃ t₀ t, Attended server policy store "a" t₀ t ∧ t₀.now = 5000 ∧ t.now = 9000 ∧
        t.requests.map (·.1) = [0, 1000, 3000, 5000, 6000, 8000] ∧
        t.scene.sync.isRetrying = false := by
  intro policy store server
  have unusable : Cache.usable? .pages store "a" = none := by decide
  have activated : Attended server policy store "a" _ _ := .activated []
  obtain ⟨-, -, -, -, goes_on⟩ := stale_answers_back_off unusable activated
  obtain ⟨t, steps, now, quiet⟩ := goes_on 5000 (by decide)
  have attended := activated.steps steps
  obtain ⟨⟨made, requests, -, -, moments⟩, -⟩ := stale_answers_back_off unusable attended
  have reloaded := attended.reloaded (by rw [now]; decide) quiet []
  obtain ⟨-, -, -, -, goes_on⟩ := stale_answers_back_off unusable reloaded
  obtain ⟨t', steps, now', quiet'⟩ := goes_on 9000 (by show t.now ≤ 9000; rw [now]; decide)
  have attended' := reloaded.steps steps
  obtain ⟨⟨made', requests', -, -, moments'⟩, -, -, ends, -⟩ :=
    stale_answers_back_off unusable attended'
  refine ⟨unusable, t, t', attended', now, now', ?_, (ends quiet' ?_).1⟩
  · rw [requests', List.map_append, moments' quiet', requests, List.map_append, moments quiet, now,
      now']
    decide
  · rw [now, now']
    decide

end Sync
end OfflineSchedule
