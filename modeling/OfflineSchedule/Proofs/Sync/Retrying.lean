import OfflineSchedule.Proofs.Sync.Allowance
import OfflineSchedule.Proofs.Sync.Offline
/-!
# What a running timer says

While the timer of the retries runs, stale data is on display: the latest request has been answered
with it, for the con that is selected. The timer lives apart from what is displayed, but whatever
could change the display stops it, or leaves both alone (`Outdated`): a request takes the place of
the timer, a con that is selected anew resets it, and the value of a con that is on display is not
looked for in the cache again.

The history tells how far the count of stale answers has come (`staleCount`), and so whether the
next one starts the timer.
-/

namespace OfflineSchedule.Sync

open Http (Outcome)
open Json (Value)
open Retry (Moment Policy)

variable {r : Resource} {Allowed : Scene r → Event → Prop} {s s' : Scene r}
  {past : List (Incident r)}

/-! ## The count of stale answers -/

/-- The incident resets the retries. -/
def Incident.resets (i : Incident r) : Bool :=
  (match i.progress with
    | .ended reload => reload.resets
    | _ => false) ||
  (match i.event.activated? with
    | some con => i.before.sync.selected ≠ some con
    | none => false) ||
  i.event.isShutdown

/-- How many answers have been stale, one after the other, since the retries were reset. When that
is as many as there are attempts, the next one makes the count start again. -/
def staleCount (attempts : Nat) : List (Incident r) → Nat
  | [] => 0
  | i :: past =>
    if i.resets then 0
    else if i.progress = .ended (.updated true) then
      if staleCount attempts past < attempts then staleCount attempts past + 1 else 0
    else staleCount attempts past

theorem resets_iff {i : Incident r} : i.resets = true ↔ i.before.Resets i.event := by
  obtain ⟨s, e⟩ := i
  unfold Incident.resets Scene.Resets
  simp only [Bool.or_eq_true, or_assoc]
  refine or_congr ?_ (or_congr ?_ ?_)
  · show _ ↔ ∃ reload, s.progress e = _ ∧ _
    show (match s.progress e with
      | .ended reload => reload.resets
      | _ => false) = true ↔ _
    cases s.progress e <;> simp
  · cases e.activated? <;> simp
  · unfold Event.isShutdown
    split
    · rename_i faults
      exact ⟨fun _ => ⟨faults, rfl⟩, fun _ => rfl⟩
    · rename_i other
      exact ⟨nofun, fun ⟨faults, he⟩ => absurd he (other faults)⟩

/-- The count is kept for the con that is selected, and is forgotten when another one is. -/
def Continues (s s' : Scene r) : Prop :=
  s'.sync.selected = s.sync.selected ∧ s'.sync.retry.attempt = s.sync.retry.attempt ∨
    s'.sync.selected ≠ s.sync.selected ∧ s'.sync.retry.attempt = 0

theorem continues_select (con : String) (y : Sync r) :
    (y.select con).selected = y.selected ∧ (y.select con).retry.attempt = y.retry.attempt ∨
      (y.select con).selected ≠ y.selected ∧ (y.select con).retry.attempt = 0 := by
  unfold select
  split
  · exact .inl ⟨rfl, rfl⟩
  · rename_i other
    exact .inr ⟨Ne.symm other, rfl⟩

/-- What neither brings a stale answer nor ends so that the retries are reset goes on counting. -/
theorem Act.continues {i : Incident r} {a b : Scene r} (h : Act i a b)
    (fresh : NotStale i.before i.event)
    (unreset : ∀ reload, i.progress = .ended reload → reload.resets = false)
    (running : i.event.isShutdown = false) (ih : Continues i.before a) : Continues i.before b := by
  cases h with
  | @found con _ _ first =>
    subst first
    exact continues_select con i.before.sync
  | @begun con _ why =>
    rcases why with selected | ⟨rfl, -⟩
    · unfold Continues
      show (a.sync.select con).selected = _ ∧ (a.sync.select con).retry.attempt = _ ∨
        (a.sync.select con).selected ≠ _ ∧ (a.sync.select con).retry.attempt = _
      rwa [select_of_selected selected]
    · exact continues_select con i.before.sync
  | @started con _ _ selected =>
    unfold Continues
    show (a.sync.select con).selected = _ ∧ (a.sync.select con).retry.attempt = _ ∨
      (a.sync.select con).selected ≠ _ ∧ (a.sync.select con).retry.attempt = _
    rwa [select_of_selected selected]
  | settled _ _ _ progress settled =>
    rcases settled.retry_cases with ⟨-, rfl⟩ | ⟨rfl, -⟩ | ⟨resets, -⟩
    · exact ih
    · exact absurd progress fresh
    · simp [unreset _ progress] at resets
  | stopped event => simp [event, Event.isShutdown] at running
  | _ => exact ih

theorem continues_next {e : Event} (fresh : NotStale s e)
    (unreset : ∀ reload, s.progress e = .ended reload → reload.resets = false)
    (running : e.isShutdown = false) : Continues s (s.next e) :=
  acts_induction (I := Continues s) (.inl ⟨rfl, rfl⟩)
    fun _ _ h ih => h.continues (i := ⟨s, e⟩) fresh unreset running ih

theorem attempt_onStale (p : Policy) (now : Moment) (q : Retry.Scheduler) :
    (q.onStale p now).2.attempt = if q.attempt < p.maxAttempts then q.attempt + 1 else 0 := by
  split
  · rename_i next
    rw [Retry.Scheduler.onStale_next next]
  · rename_i spent
    rw [Retry.Scheduler.onStale_spent (Nat.le_of_not_lt spent)]

theorem Scene.Resets.attempt {e : Event} (reset : s.Resets e) :
    (s.next e).sync.retry.attempt = 0 := by
  by_cases ends : ∃ reload, s.progress e = .ended reload ∧ reload.resets = true
  · obtain ⟨reload, ended, resets⟩ := ends
    obtain ⟨ticket, now, o, faults, f, rfl, waited, settled⟩ :=
      exists_answer_of_ended ended (by rintro rfl; cases resets)
    rcases settled.retry_cases with ⟨rfl, -⟩ | ⟨rfl, -⟩ | ⟨-, reset⟩
    · cases resets
    · cases resets
    · exact congrArg (·.attempt) reset
  · rcases reset with ended | ⟨con, activated, other⟩ | ⟨faults, rfl⟩
    · exact absurd ended ends
    · have unreset : ∀ reload, s.progress e = .ended reload → reload.resets = false := by
        intro reload ended
        exact Bool.eq_false_iff.2 fun resets => ends ⟨reload, ended, resets⟩
      have fresh : NotStale s e := notStale_of_ne_answer fun ticket now o faults h => by
        subst h
        cases activated
      have running : e.isShutdown = false := by
        unfold Event.isShutdown
        split
        · cases activated
        · rfl
      rcases continues_next fresh unreset running with ⟨same, -⟩ | ⟨-, forgotten⟩
      · rw [selected_next, activated] at same
        exact absurd same.symm other
      · exact forgotten
    · rfl

theorem attempt_of_stale {e : Event} (ended : s.progress e = .ended (.updated true)) :
    (s.next e).sync.retry.attempt =
      if s.sync.retry.attempt < s.machine.policy.maxAttempts then s.sync.retry.attempt + 1
      else 0 := by
  obtain ⟨ticket, now, o, faults, f, rfl, -, settled⟩ := exists_answer_of_ended ended (by nofun)
  rcases settled.retry_cases with ⟨h, -⟩ | ⟨-, stale⟩ | ⟨resets, -⟩
  · cases h
  · rw [stale]
    exact attempt_onStale s.machine.policy now s.sync.retry
  · cases resets

theorem attempt_of_unreset {e : Event} (unreset : ¬ s.Resets e)
    (fresh : s.progress e ≠ .ended (.updated true)) :
    (s.next e).sync.retry.attempt = s.sync.retry.attempt := by
  have ends : ∀ reload, s.progress e = .ended reload → reload.resets = false := by
    intro reload ended
    exact Bool.eq_false_iff.2 fun resets => unreset (.inl ⟨reload, ended, resets⟩)
  have running : e.isShutdown = false := by
    unfold Event.isShutdown
    split
    · rename_i faults
      exact absurd (.inr (.inr ⟨faults, rfl⟩)) unreset
    · rfl
  have selected : (s.next e).sync.selected = s.sync.selected := by
    rw [selected_next]
    cases activated : e.activated? with
    | none => rfl
    | some con =>
      refine Decidable.by_contra fun other => ?_
      exact unreset (.inr (.inl ⟨con, activated, fun h => other h.symm⟩))
  rcases continues_next fresh ends running with ⟨-, same⟩ | ⟨other, -⟩
  · exact same
  · exact absurd selected other

/-- The history tells the count. -/
theorem Run.attempt_eq {policy : Policy} {store : Store}
    (run : Run Allowed (.new policy store) past s) :
    s.sync.retry.attempt = staleCount policy.maxAttempts past := by
  induction run with
  | nil => rfl
  | @cons past s e run _ ih =>
    obtain ⟨-, policy_eq⟩ := run.counted
    unfold staleCount
    split
    · rename_i resets
      exact (resets_iff.1 resets).attempt
    · rename_i unreset
      rw [resets_iff] at unreset
      split
      · rename_i stale
        rw [attempt_of_stale stale, ih, policy_eq]
      · rename_i fresh
        rw [attempt_of_unreset unreset fresh, ih]

/-! ## Stale data on display -/

/-- The answer `payload` to the request `f`, the latest one, was stale, and its value is on display
for the con that is selected. -/
structure Outdated (past : List (Incident r)) (f : Flight) (payload : Value) (value : r.Live)
    (etag : Option String) (s : Scene r) : Prop where
  answered : Answered past f (.success payload etag true) (.updated true)
  decoded : r.liveOfValue payload = .ok value
  latest : f.number = s.sync.issued
  /-- No reload waits for the answer to it, or to a later one. -/
  completed : ∀ k g, s.Waits k g → g.number < s.sync.issued
  selected : s.sync.selected = some f.con
  owner : s.sync.owner = some f.con
  published : s.sync.published = .success value etag
  counted : 0 < s.sync.retry.attempt

/-- While the timer runs, outdated data is on display. -/
def TimerTells (past : List (Incident r)) (s : Scene r) : Prop :=
  s.sync.isRetrying = true → ∃ f payload value etag, Outdated past f payload value etag s

theorem TimerTells.mono (i : Incident r) (h : TimerTells past s) : TimerTells (i :: past) s := by
  intro timer
  obtain ⟨f, payload, value, etag, outdated⟩ := h timer
  exact ⟨f, payload, value, etag, { outdated with answered := outdated.answered.mono i }⟩

/-- Nothing but the bookkeeping of reloads changes. -/
theorem TimerTells.congr (h : TimerTells past s) (sync : s'.sync = s.sync)
    (waits : ∀ k g, s'.Waits k g → ∃ g', s.Waits k g' ∧ g'.number = g.number) :
    TimerTells past s' := by
  intro timer
  rw [sync] at timer
  obtain ⟨f, payload, value, etag, h⟩ := h timer
  refine ⟨f, payload, value, etag, h.answered, h.decoded, sync ▸ h.latest, fun k g hw => ?_,
    sync ▸ h.selected, sync ▸ h.owner, sync ▸ h.published, sync ▸ h.counted⟩
  obtain ⟨g', waited, number⟩ := waits k g hw
  rw [sync, ← number]
  exact h.completed k g' waited

theorem TimerTells.of_stopped (stopped : s.sync.retry.timer = none) : TimerTells past s := by
  intro timer
  rw [isRetrying_of_timer_none stopped] at timer
  cases timer

/-- The value of a con is not looked for in the cache while the timer runs for it. -/
theorem TimerTells.found {con : String} {value : r.Live} {etag : Option String}
    (h : TimerTells past s) (hidden : s.sync.isShowing con = false) :
    (s.sync.found con value etag).retry.timer = none := by
  show (s.sync.select con).retry.timer = none
  unfold select
  split
  · rename_i selected
    refine Decidable.by_contra fun timer => ?_
    have timer : s.sync.isRetrying = true := Option.isSome_iff_ne_none.2 timer
    obtain ⟨f, payload, value, etag, h⟩ := h timer
    have con_eq : some f.con = some con := h.selected.symm.trans selected
    rw [isShowing_iff.2 ⟨selected, h.owner.trans con_eq, by rw [h.published]; rfl⟩] at hidden
    cases hidden
  · rfl

theorem TimerTells.settled {i : Incident r} {ticket : Nat} {now : Moment} {o : Outcome Value}
    {f : Flight} {reload : Reload} {store : Store} {sync : Sync r} {faults : List StoreOperation}
    (h : TimerTells (i :: past) s) (orderly : Orderly s)
    (event : i.event = .move (.answer ticket now o) faults) (first : s = i.before)
    (waited : s.Waits ticket f) (progress : i.progress = .ended reload)
    (settled : Settled s.machine.policy now f o s.store s.sync reload store sync) :
    TimerTells (i :: past) ⟨store, { s.machine with sync }.endJob ticket⟩ := by
  have waits : ∀ k g, (Scene.mk store ({ s.machine with sync }.endJob ticket)).Waits k g →
      k ≠ ticket ∧ s.Waits k g := fun k g hw => Part.waits_endJob (m := { s.machine with sync }) hw
  cases settled with
  | superseded => exact h.congr rfl fun k g hw => ⟨g, (waits k g hw).2, rfl⟩
  | @updated payload value etag stale answer decoded latest =>
    cases stale with
    | false => exact .of_stopped rfl
    | true =>
      intro timer
      rw [isLatest_iff] at latest
      have answered : Answered (i :: past) f (.success payload etag true) (.updated true) :=
        .of_mem List.mem_cons_self (answer ▸ event) (first ▸ waited) progress
      refine ⟨f, payload, value, etag, answered, decoded, latest, fun k g hw => ?_,
        orderly.selected_of_latest ticket f waited latest, rfl, rfl, ?_⟩
      · -- The latest request has just been answered, so whoever else waits has an earlier number.
        obtain ⟨other, hw⟩ := waits k g hw
        have le := orderly.number_le k g hw
        have ne : g.number ≠ s.sync.issued := fun same =>
          other (orderly.ticket_unique k ticket g f hw waited (same.trans latest.symm))
        exact Nat.lt_of_le_of_ne le ne
      · rcases Nat.lt_or_ge s.sync.retry.attempt s.machine.policy.maxAttempts with next | spent
        · show 0 < (s.sync.retry.onStale s.machine.policy now).2.attempt
          rw [Retry.Scheduler.onStale_next next]
          exact Nat.succ_pos _
        · have timer : (s.sync.retry.onStale s.machine.policy now).2.isPending = true := timer
          rw [Retry.Scheduler.onStale_spent spent] at timer
          cases timer
  | notModified => exact .of_stopped rfl
  | @failed code => exact .of_stopped (timer_fail f code s.sync)

theorem TimerTells.act {i : Incident r} {a b : Scene r} (h : TimerTells (i :: past) a)
    (orderly : Orderly a) (act : Act i a b) : TimerTells (i :: past) b := by
  have same : ∀ {k : Nat} {g : Flight}, a.Waits k g → ∃ g', a.Waits k g' ∧ g'.number = g.number :=
    fun hw => ⟨_, hw, rfl⟩
  cases act with
  | found _ hidden => exact .of_stopped (h.found hidden)
  | queued =>
    refine h.congr rfl fun k g hw => ?_
    rcases Part.waits_setJob (m := a.machine) hw with ⟨-, hj⟩ | ⟨-, hw⟩
    · cases hj
    · exact same hw
  | begun => exact .of_stopped rfl
  | started => exact .of_stopped rfl
  | abandoned => exact h.congr rfl fun k g hw => same (Part.waits_endJob hw).2
  | settled event first waited progress settled =>
    exact h.settled orderly event first waited progress settled
  | @again _ _ _ f _ _ waited =>
    refine h.congr rfl fun k g hw => ?_
    rcases Part.waits_setJob (m := a.machine) hw with ⟨rfl, hj⟩ | ⟨-, hw⟩
    · cases hj
      exact ⟨f, waited, rfl⟩
    · exact same hw
  | stopped => exact .of_stopped rfl
  | fired => exact .of_stopped rfl
  | _ => exact h.congr rfl fun k g hw => same hw

theorem Run.timerTells {policy : Policy} {store : Store}
    (run : Run Allowed (.new policy store) past s) : TimerTells past s := by
  induction run with
  | nil => exact .of_stopped rfl
  | @cons past s e run _ ih =>
    have both : Orderly (s.next e) ∧ TimerTells (⟨s, e⟩ :: past) (s.next e) :=
      acts_induction (I := fun s' => Orderly s' ∧ TimerTells (⟨s, e⟩ :: past) s')
        ⟨run.orderly, ih.mono _⟩ fun a b act h => ⟨h.1.part act.part, h.2.act h.1 act⟩
    exact both.2

/-! ## The latest request -/

theorem job?_activate {m m' : Machine r} {con : String} {store : Store}
    {faults : List StoreOperation} {k : Nat} {f : Flight}
    (h : m.activate con store faults = (.sent k f, m')) : m'.job? k = some (.fetching f) := by
  unfold Machine.activate at h
  split at h
  · cases h
  · exact job?_reload h
  · cases h
  · cases h

theorem job?_refresh {m m' : Machine r} {con : String} {store : Store}
    {faults : List StoreOperation} {k : Nat} {f : Flight}
    (h : m.refresh con store faults = (.sent k f, m')) : m'.job? k = some (.fetching f) := by
  unfold Machine.refresh at h
  split at h
  · cases h
  · exact job?_reload h
  · exact job?_reload h
  · exact job?_activate h

theorem job?_start {m m' : Machine r} {ticket : Nat} {store : Store} {k : Nat} {f : Flight}
    (h : m.start ticket store = (.sent k f, m')) : m'.job? k = some (.fetching f) := by
  unfold Machine.start at h
  split at h
  · split at h
    · cases h
    · cases h
      exact (Machine.job?_setJob _ _ _ _).trans (if_pos rfl)
  · cases h

theorem job?_retry {m m' : Machine r} {store : Store} {k : Nat} {f : Flight}
    (h : m.retry store = (.sent k f, m')) : m'.job? k = some (.fetching f) := by
  unfold Machine.retry at h
  split at h
  · cases h
  · split at h
    · rename_i begun
      cases h
      have waits := job?_reload begun
      exact waits
    · exact job?_reload h

/-- Whoever has made a request waits for the answer to it. -/
theorem waits_of_sent {e : Event} {k : Nat} {f : Flight} (sent : s.progress e = .sent k f) :
    (s.next e).Waits k f := by
  cases e with
  | interference store => cases sent
  | move e faults =>
    cases e with
    | activate con => exact job?_activate (Prod.ext sent rfl)
    | refresh con => exact job?_refresh (Prod.ext sent rfl)
    | reload => exact job?_reload (Prod.ext sent rfl)
    | start ticket => exact job?_start (Prod.ext sent rfl)
    | retry => exact job?_retry (Prod.ext sent rfl)
    | answer ticket now o =>
      rcases waits_or_idle s ticket with ⟨g, waited⟩ | idle
      · obtain rfl : ticket = k := by
          rcases next_answer waited now o faults with ⟨reload, ended, -⟩ | ⟨again, -⟩
          · exact nomatch ended.symm.trans sent
          · exact (Progress.sent.inj (again.symm.trans sent)).1
        exact (waits_answered waited now o faults f).2 sent
      · rw [Scene.progress, perform_answer_idle idle] at sent
        cases sent
    | clear => cases sent
    | shutdown => cases sent
    | abandon ticket => cases sent
    | fire => cases sent

/-- No request of the run has a higher number than has been given out. -/
theorem Run.sent_number_le {policy : Policy} {store : Store}
    (run : Run Allowed (.new policy store) past s) {i : Incident r} (mem : i ∈ past) {k : Nat}
    {g : Flight} (sent : i.progress = .sent k g) : g.number ≤ s.sync.issued := by
  induction run with
  | nil => cases mem
  | @cons past s e run allowed ih =>
    rcases List.mem_cons.1 mem with rfl | mem
    · exact (run.cons allowed).orderly.number_le k g (waits_of_sent sent)
    · exact Nat.le_trans (ih mem) (issued_le_next s e)

/-! ## Pending retries -/

theorem isRetrying_of_stale {e : Event} (ended : s.progress e = .ended (.updated true)) :
    (s.next e).sync.retry.timer ≠ none ↔
      s.sync.retry.attempt < s.machine.policy.maxAttempts := by
  obtain ⟨ticket, now, o, faults, f, rfl, -, settled⟩ := exists_answer_of_ended ended (by nofun)
  rcases settled.retry_cases with ⟨h, -⟩ | ⟨-, stale⟩ | ⟨resets, -⟩
  · cases h
  · rw [stale]
    rcases Nat.lt_or_ge s.sync.retry.attempt s.machine.policy.maxAttempts with next | spent
    · rw [Retry.Scheduler.onStale_next next]
      exact ⟨fun _ => next, fun _ => nofun⟩
    · rw [Retry.Scheduler.onStale_spent spent]
      exact ⟨fun h => absurd rfl h, fun next => absurd next (Nat.not_lt.2 spent)⟩
  · cases resets

/-- **Pending retries.** While the timer of the retries runs, the latest request of the run has been
answered, for the con that is selected and with stale data; nobody waits for an answer that could
count; the value of the answer is on display; and between one and all of the attempts have been
counted. A stale answer starts the timer and is counted, unless as many as there are attempts have
been counted since the last reset: then no timer runs, and the count starts again. -/
theorem timer_tells_stale_display {policy : Policy} {store : Store}
    (run : Run Allowed (.new policy store) past s) :
    (s.sync.isRetrying = true → ∃ f payload value etag,
      Answered past f (.success payload etag true) (.updated true) ∧
      (∀ i ∈ past, ∀ k g, i.progress = .sent k g → g.number ≤ f.number) ∧
      (∀ k g, s.Waits k g → g.number < f.number) ∧
      s.sync.selected = some f.con ∧ s.sync.status = .success ∧
      r.liveOfValue payload = .ok value ∧ s.sync.current = .success value etag ∧
      (∀ d, s.sync.dataOr d = value) ∧
      1 ≤ s.sync.retry.attempt ∧ s.sync.retry.attempt ≤ policy.maxAttempts) ∧
    ∀ e, s.progress e = .ended (.updated true) →
      (staleCount policy.maxAttempts past < policy.maxAttempts →
        (s.next e).sync.isRetrying = true ∧
        (s.next e).sync.retry.attempt = staleCount policy.maxAttempts past + 1) ∧
      (policy.maxAttempts ≤ staleCount policy.maxAttempts past →
        (s.next e).sync.retry.timer = none ∧ (s.next e).sync.retry.attempt = 0) := by
  obtain ⟨counted, policy_eq⟩ := run.counted
  refine ⟨fun timer => ?_, fun e stale => ?_⟩
  · obtain ⟨f, payload, value, etag, h⟩ := run.timerTells timer
    have current : s.sync.current = .success value etag := by
      rw [Sync.current, if_pos (h.owner.trans h.selected.symm), h.published]
    have status : s.sync.status = .success := by rw [Sync.status, current]; rfl
    have data : ∀ d, s.sync.dataOr d = value := fun d => by rw [Sync.dataOr, current]; rfl
    refine ⟨f, payload, value, etag, h.answered, fun i mem k g sent => ?_, fun k g hw => ?_,
      h.selected, status, h.decoded, current, data, h.counted, policy_eq ▸ counted⟩
    · rw [h.latest]
      exact run.sent_number_le mem sent
    · rw [h.latest]
      exact h.completed k g hw
  · have attempt := attempt_of_stale stale
    have timer := isRetrying_of_stale stale
    rw [run.attempt_eq, policy_eq] at attempt timer
    refine ⟨fun left => ⟨?_, ?_⟩, fun spent => ⟨?_, ?_⟩⟩
    · exact Option.isSome_iff_ne_none.2 (timer.2 left)
    · rw [attempt, if_pos left]
    · exact Decidable.by_contra fun running => Nat.not_lt.2 spent (timer.1 running)
    · rw [attempt, if_neg (Nat.not_lt.2 spent)]

/-- Two answers have been stale in a row, and a third one will not be asked for. -/
theorem second_stale_display :
    let start : Scene .pages := .new ⟨.ofMillis 1000, 2⟩ { kind := .database }
    let stale : Outcome Value := .success (.array []) none true
    let s := start.afterAll [.move (.activate "a") [], .move (.answer 0 0 stale) [],
      .move .reload [], .move (.answer 1 0 stale) []]
    let s' := s.next (.move .reload [])
    (∃ past, Run (fun _ _ => True) start past s) ∧ s.sync.isRetrying = true ∧
      s.sync.status = .success ∧ s.sync.retry.attempt ≤ 2 ∧
      (∃ past, Run (fun _ _ => True) start past s' ∧ 2 ≤ staleCount 2 past) ∧
      s'.progress (.move (.answer 2 0 stale) []) = .ended (.updated true) ∧
      (s'.next (.move (.answer 2 0 stale) [])).sync.retry.timer = none := by
  intro start stale s s'
  obtain ⟨past, run⟩ : ∃ past, Run (fun _ _ => True) start past s :=
    Run.nil.afterAll _ (by simp [Scene.AllowsAll])
  have run' := run.cons (e := .move .reload []) trivial
  have timer : s.sync.isRetrying = true := by decide
  have ended : s'.progress (.move (.answer 2 0 stale) []) = .ended (.updated true) := by decide
  obtain ⟨f, _, _, _, -, -, -, -, status, -, -, -, -, le⟩ := (timer_tells_stale_display run).1 timer
  have spent : 2 ≤ staleCount 2 (⟨s, .move .reload []⟩ :: past) := by
    rw [← run'.attempt_eq]
    decide
  have stopped := ((timer_tells_stale_display run').2 _ ended).2 spent
  exact ⟨⟨past, run⟩, timer, status, le, ⟨_, run', spent⟩, ended, stopped.1⟩

end OfflineSchedule.Sync
