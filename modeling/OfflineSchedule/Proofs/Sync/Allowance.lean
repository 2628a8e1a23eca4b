import OfflineSchedule.Proofs.Sync.Retries
/-!
# How many retries can follow

A stale answer makes for a retry, and that for another answer, which may be stale again. The count
of stale answers alone does not show that this ends: it starts again after each reset and whenever
the attempts are spent, and several triggers can wait at once. What does is the allowance
(`Machine.allowance`). Everything that is outstanding, a trigger, the timer or a reload, is good for
as many stale answers as there are attempts, those that have been counted apart; a trigger and the
timer are good for one retry more. A retry uses up one of it, and unless somebody asks for a con or
for a reload nothing else adds to it than a shutdown, which forgets the count while a reload may
still be out.
-/

namespace OfflineSchedule.Sync

open Http (Outcome)
open Json (Value)
open Retry (Moment Policy)

variable {r : Resource} {Allowed : Scene r → Event → Prop} {s : Scene r} {past : List (Incident r)}

/-! ## Definitions -/

/-- Triggers, and the timer that leaves one. -/
def Machine.calls (m : Machine r) : Nat := m.triggers + m.sync.isRetrying.toNat

/-- All that a retry can still come of: triggers, the timer, and the reloads that have not ended,
begun or not. -/
def Machine.outstanding (m : Machine r) : Nat := m.calls + m.jobs.length

/-- As many retries can still follow. -/
def Machine.allowance (m : Machine r) : Nat :=
  m.calls + (m.outstanding * m.policy.maxAttempts - m.sync.retry.attempt)

/-- Nobody asks for a con or for a reload. -/
def Event.isUnasked : Event → Bool
  | .move (.activate _) _ | .move (.refresh _) _ | .move .reload _ => false
  | _ => true

def Event.isShutdown : Event → Bool
  | .move .shutdown _ => true
  | _ => false

/-- How often the retries are shut down in the course of some events. -/
def shutdowns (es : List Event) : Nat := es.countP (·.isShutdown)

/-! ## Policy and count -/

theorem Act.policy {i : Incident r} {s s' : Scene r} (h : Act i s s') :
    s'.machine.policy = s.machine.policy := by
  cases h <;> rfl

theorem policy_next (s : Scene r) (e : Event) :
    (s.next e).machine.policy = s.machine.policy :=
  acts_induction (I := fun s' => s'.machine.policy = s.machine.policy) rfl
    fun _ _ h same => h.policy.trans same

/-- What an answer does to the retries. -/
theorem Settled.retry_cases {policy : Policy} {now : Moment} {f : Flight} {o : Outcome Value}
    {store store' : Store} {y y' : Sync r} {reload : Reload}
    (h : Settled policy now f o store y reload store' y') :
    reload = .superseded ∧ y' = y ∨
    reload = .updated true ∧ y'.retry = (y.retry.onStale policy now).2 ∨
    reload.resets = true ∧ y'.retry = {} := by
  cases h with
  | superseded => exact .inl ⟨rfl, rfl⟩
  | @updated _ _ _ stale =>
    cases stale with
    | true => exact .inr (.inl ⟨rfl, rfl⟩)
    | false => exact .inr (.inr ⟨rfl, rfl⟩)
  | notModified => exact .inr (.inr ⟨rfl, rfl⟩)
  | @failed code =>
    refine .inr (.inr ⟨rfl, ?_⟩)
    unfold Sync.fail
    split <;> rfl

theorem attempt_onStale_le {p : Policy} {now : Moment} {q : Retry.Scheduler} :
    (q.onStale p now).2.attempt ≤ p.maxAttempts := by
  rcases Nat.lt_or_ge q.attempt p.maxAttempts with next | spent
  · rw [Retry.Scheduler.onStale_next next]
    exact next
  · rw [Retry.Scheduler.onStale_spent spent]
    exact Nat.zero_le _

/-- The count stays within the attempts. -/
def Machine.IsCounted (m : Machine r) : Prop := m.sync.retry.attempt ≤ m.policy.maxAttempts

theorem Act.isCounted {i : Incident r} {s s' : Scene r} (h : Act i s s')
    (counted : s.machine.IsCounted) : s'.machine.IsCounted := by
  have select : ∀ con, (s.sync.select con).retry.attempt ≤ s.machine.policy.maxAttempts := by
    intro con
    unfold Sync.select
    split
    · exact counted
    · exact Nat.zero_le _
  cases h with
  | found => exact select _
  | begun => exact select _
  | started => exact select _
  | @settled _ _ _ _ _ _ _ sync _ _ _ _ settled =>
    show sync.retry.attempt ≤ s.machine.policy.maxAttempts
    rcases settled.retry_cases with ⟨-, rfl⟩ | ⟨-, stale⟩ | ⟨-, reset⟩
    · exact counted
    · rw [stale]
      exact attempt_onStale_le
    · rw [reset]
      exact Nat.zero_le _
  | stopped => exact Nat.zero_le _
  | _ => exact counted

theorem Machine.IsCounted.next (h : s.machine.IsCounted) (e : Event) :
    (s.next e).machine.IsCounted :=
  acts_induction (I := fun s' => s'.machine.IsCounted) h fun _ _ act => act.isCounted

theorem Run.counted {policy : Policy} {store : Store}
    (run : Run Allowed (.new policy store) past s) :
    s.machine.IsCounted ∧ s.machine.policy = policy := by
  induction run with
  | nil => exact ⟨Nat.zero_le _, rfl⟩
  | @cons _ _ e _ _ ih => exact ⟨ih.1.next e, (policy_next _ e).trans ih.2⟩

/-! ## Counting reloads -/

theorem length_eraseJob (ticket : Nat) (m : Machine r) :
    (m.eraseJob ticket).jobs.length ≤ m.jobs.length := List.length_filter_le _ _

/-- To end a reload that is known leaves one less. -/
theorem length_eraseJob_lt {ticket : Nat} {j : Job} {m : Machine r} (known : m.job? ticket = some j) :
    (m.eraseJob ticket).jobs.length < m.jobs.length := by
  obtain ⟨p, found, -⟩ := Option.map_eq_some_iff.1 known
  have mem := List.mem_of_find?_eq_some found
  have eq : p.1 = ticket := by simpa using List.find?_some found
  exact List.length_filter_lt_length_iff_exists.2 ⟨p, mem, by simp [eq]⟩

theorem length_endJob_lt {ticket : Nat} {j : Job} {m : Machine r} (known : m.job? ticket = some j) :
    (m.endJob ticket).jobs.length < m.jobs.length := length_eraseJob_lt known

theorem length_setJob (ticket : Nat) (j : Job) (m : Machine r) :
    (m.setJob ticket j).jobs.length ≤ m.jobs.length + 1 :=
  Nat.succ_le_succ (length_eraseJob ticket m)

/-- Another state of a reload that is known makes no reload more. -/
theorem length_setJob_of_known {ticket : Nat} {j : Job} {m : Machine r}
    (known : m.job? ticket = some j) (j' : Job) :
    (m.setJob ticket j').jobs.length ≤ m.jobs.length := length_eraseJob_lt known

/-! ## What an event does to them -/

theorem isRetrying_of_timer_none {y : Sync r} (h : y.retry.timer = none) :
    y.isRetrying = false := by
  simp [isRetrying, Retry.Scheduler.isPending, h]

theorem Machine.calls_le (m : Machine r) : m.calls ≤ m.outstanding := Nat.le_add_right _ _

/-- Without a timer only the triggers count. -/
theorem calls_of_stopped {m m' : Machine r} (stopped : m'.sync.isRetrying = false)
    (triggers : m'.triggers = m.triggers) : m'.calls ≤ m.calls := by
  unfold Machine.calls
  rw [stopped, triggers]
  exact Nat.add_le_add_left (Nat.zero_le _) _

theorem outstanding_le {m m' : Machine r} (calls : m'.calls ≤ m.calls)
    (jobs : m'.jobs.length ≤ m.jobs.length) : m'.outstanding ≤ m.outstanding :=
  Nat.add_le_add calls jobs

theorem outstanding_lt {m m' : Machine r} (calls : m'.calls ≤ m.calls)
    (jobs : m'.jobs.length < m.jobs.length) : m'.outstanding < m.outstanding :=
  Nat.add_lt_add_of_le_of_lt calls jobs

/-- How `n` retries that begin in an event, and what is outstanding after it, go with what was
outstanding before. -/
inductive Tally (n : Nat) (m m' : Machine r) : Prop where
  /-- A retry uses up a trigger, and the count of stale answers is kept. -/
  | kept (calls : m'.calls + n ≤ m.calls) (outstanding : m'.outstanding ≤ m.outstanding)
      (attempt : m'.sync.retry.attempt = m.sync.retry.attempt)
  /-- Something that was outstanding is gone. -/
  | less (none : n = 0) (calls : m'.calls ≤ m.calls) (outstanding : m'.outstanding < m.outstanding)
  /-- One more stale answer is counted, and makes a timer out of a reload. -/
  | counted (none : n = 0) (calls : m'.calls ≤ m.calls + 1)
      (outstanding : m'.outstanding ≤ m.outstanding) (some : 0 < m.outstanding)
      (left : m.sync.retry.attempt < m.policy.maxAttempts)
      (attempt : m'.sync.retry.attempt = m.sync.retry.attempt + 1)

theorem Tally.outstanding_le {n : Nat} {m m' : Machine r} (h : Tally n m m') :
    m'.outstanding ≤ m.outstanding := by
  cases h with
  | kept _ outstanding => exact outstanding
  | less _ _ outstanding => exact Nat.le_of_lt outstanding
  | counted _ _ outstanding => exact outstanding

/-- What begins is taken out of the allowance. -/
theorem Tally.allowance_le {n : Nat} {m m' : Machine r} (h : Tally n m m') (counted : m.IsCounted)
    (policy : m'.policy = m.policy) : n + m'.allowance ≤ m.allowance := by
  have counted : m.sync.retry.attempt ≤ m.policy.maxAttempts := counted
  have product : m'.outstanding * m.policy.maxAttempts ≤ m.outstanding * m.policy.maxAttempts :=
    Nat.mul_le_mul_right _ h.outstanding_le
  unfold Machine.allowance
  rw [policy]
  cases h with
  | kept calls _ attempt =>
    rw [attempt]
    omega
  | less none calls outstanding =>
    -- Whatever the count is afterwards: what is gone was good for all attempts, and no more than
    -- those had been counted.
    have product : (m'.outstanding + 1) * m.policy.maxAttempts ≤
        m.outstanding * m.policy.maxAttempts := Nat.mul_le_mul_right _ outstanding
    rw [Nat.succ_mul] at product
    omega
  | counted none calls _ some left attempt =>
    -- The timer is one call more, and the answer that was counted pays for it.
    have one : m.policy.maxAttempts ≤ m.outstanding * m.policy.maxAttempts :=
      Nat.le_mul_of_pos_left _ some
    rw [attempt]
    omega

theorem attempt_begun {con : String} {y : Sync r} (selected : y.selected = some con) :
    (y.begun con).retry.attempt = y.retry.attempt := by
  show (y.select con).retry.attempt = y.retry.attempt
  rw [select_of_selected selected]

/-- A reload that begins takes the place of the timer, and there is one more under way. -/
theorem reload_tally (m : Machine r) (store : Store) :
    (m.reload store).2.calls ≤ m.calls ∧ (m.reload store).2.outstanding ≤ m.outstanding + 1 ∧
      (m.reload store).2.sync.retry.attempt = m.sync.retry.attempt := by
  unfold Machine.reload
  cases selected : m.sync.selected with
  | none =>
    rw [issue_of_unselected selected]
    exact ⟨Nat.le_refl _, Nat.le_succ _, rfl⟩
  | some con =>
    rw [issue_of_selected selected]
    have calls : { m with sync := m.sync.begun con }.calls ≤ m.calls := calls_of_stopped rfl rfl
    have jobs := length_setJob m.nextTicket (.fetching (m.sync.request con store)) m
    refine ⟨calls, ?_, attempt_begun selected⟩
    show _ ≤ m.calls + (m.jobs.length + 1)
    exact Nat.add_le_add calls jobs

/-- The retry loop makes a reload of a trigger. -/
theorem retry_tally (m : Machine r) (store : Store) :
    Tally (decide ((m.retry store).1 ≠ .done)).toNat m (m.retry store).2 := by
  unfold Machine.retry
  split
  · exact .kept (Nat.le_refl _) (Nat.le_refl _) rfl
  · rename_i free
    simp only [Bool.or_eq_true, decide_eq_true_eq, not_or] at free
    obtain ⟨begun, -⟩ := reload_triggers { m with triggers := m.triggers - 1 } store
    obtain ⟨calls, outstanding, attempt⟩ := reload_tally { m with triggers := m.triggers - 1 } store
    have taken : { m with triggers := m.triggers - 1 }.calls + 1 = m.calls := by
      show m.triggers - 1 + m.sync.isRetrying.toNat + 1 = m.triggers + m.sync.isRetrying.toNat
      omega
    have less : { m with triggers := m.triggers - 1 }.outstanding + 1 = m.outstanding := by
      show _ + m.jobs.length + 1 = m.calls + m.jobs.length
      omega
    generalize Machine.reload store { m with triggers := m.triggers - 1 } = result at *
    obtain ⟨p, m'⟩ := result
    have begins : (decide (p ≠ .done)).toNat = 1 := by rw [decide_eq_true begun]; rfl
    rw [less] at outstanding
    have paid : m'.calls + 1 ≤ m.calls := taken ▸ Nat.succ_le_succ calls
    split <;> rename_i h
    · cases h
      exact .kept paid outstanding attempt
    · exact .kept (begins ▸ paid) outstanding attempt

theorem start_tally (m : Machine r) (ticket : Nat) (store : Store) :
    Tally 0 m (m.start ticket store).2 := by
  unfold Machine.start
  split
  · rename_i queued
    cases selected : m.sync.selected with
    | none =>
      rw [issue_of_unselected selected]
      have ended : (m.endJob ticket).outstanding < m.outstanding :=
        outstanding_lt (Nat.le_refl _) (length_endJob_lt queued)
      exact .less rfl (Nat.le_refl _) ended
    | some con =>
      rw [issue_of_selected selected]
      have calls : { m with sync := m.sync.begun con }.calls ≤ m.calls := calls_of_stopped rfl rfl
      refine .kept calls (Nat.add_le_add calls ?_)
        (attempt_begun selected)
      exact length_setJob_of_known queued _
  · exact .kept (Nat.le_refl _) (Nat.le_refl _) rfl

/-- A timer that ends leaves a trigger. -/
theorem fire_tally (m : Machine r) : Tally 0 m m.fire := by
  unfold Machine.fire
  split
  · rename_i pending
    have calls : m.triggers + 1 + 0 = m.calls := by
      unfold Machine.calls
      rw [pending]
      rfl
    exact .kept (by show m.triggers + 1 + 0 ≤ m.calls; omega)
      (by show m.triggers + 1 + 0 + m.jobs.length ≤ m.calls + m.jobs.length; omega) rfl
  · exact .kept (Nat.le_refl _) (Nat.le_refl _) rfl

/-- A stale answer that is counted makes a timer of its reload, and another one stops the timer. -/
theorem stale_tally {m : Machine r} {ticket : Nat} {j : Job} (known : m.job? ticket = some j)
    {y : Sync r} (now : Moment) (stale : y.retry = (m.sync.retry.onStale m.policy now).2) :
    Tally 0 m ({ m with sync := y }.endJob ticket) := by
  have jobs : (m.endJob ticket).jobs.length < m.jobs.length := length_endJob_lt known
  rcases Nat.lt_or_ge m.sync.retry.attempt m.policy.maxAttempts with left | spent
  · rw [Retry.Scheduler.onStale_next left] at stale
    have timer : y.isRetrying.toNat = 1 := by simp [isRetrying, stale, Retry.Scheduler.isPending]
    have calls : m.triggers + y.isRetrying.toNat ≤ m.calls + 1 := by
      unfold Machine.calls
      omega
    have outstanding : m.triggers + y.isRetrying.toNat + (m.endJob ticket).jobs.length ≤
        m.calls + m.jobs.length := by omega
    have attempt : y.retry.attempt = m.sync.retry.attempt + 1 := congrArg (·.attempt) stale
    have some_job : 0 < m.calls + m.jobs.length := by omega
    exact .counted rfl calls outstanding some_job left attempt
  · rw [Retry.Scheduler.onStale_spent spent] at stale
    have calls : { m with sync := y }.calls ≤ m.calls :=
      calls_of_stopped (isRetrying_of_timer_none (congrArg (·.timer) stale)) rfl
    exact .less rfl calls (outstanding_lt calls jobs)

/-- An answer ends its reload, unless the request is made again. -/
theorem answer_tally (m : Machine r) (ticket : Nat) (now : Moment) (o : Outcome Value)
    (store : Store) : Tally 0 m (m.answer ticket now o store).2.2 := by
  unfold Machine.answer
  split
  · rename_i f waited
    have jobs : (m.endJob ticket).jobs.length < m.jobs.length := length_endJob_lt waited
    rcases answer_cases m.policy now f o store m.sync with
      ⟨reload, store', y, ended, settled⟩ | ⟨again, -⟩
    · rw [ended]
      rcases settled.retry_cases with ⟨-, rfl⟩ | ⟨-, stale⟩ | ⟨-, reset⟩
      · exact .less rfl (Nat.le_refl _) (outstanding_lt (Nat.le_refl m.calls) jobs)
      · exact stale_tally waited now stale
      · have calls : { m with sync := y }.calls ≤ m.calls :=
          calls_of_stopped (isRetrying_of_timer_none (congrArg (·.timer) reset)) rfl
        exact .less rfl calls (outstanding_lt calls jobs)
    · -- The reload goes on under its ticket.
      rw [again]
      refine .kept (Nat.le_refl _) ?_ rfl
      exact outstanding_le (Nat.le_refl m.calls) (length_setJob_of_known waited _)
  · exact .kept (Nat.le_refl _) (Nat.le_refl _) rfl

/-- What nobody asks for is a shutdown, or it is paid for. -/
theorem tally_next {e : Event} (unasked : e.isUnasked = true) :
    Tally (s.begins e).toNat s.machine (s.next e).machine ∨ e.isShutdown = true := by
  have idle : Tally 0 s.machine s.machine := .kept (Nat.le_refl _) (Nat.le_refl _) rfl
  cases e with
  | interference store => exact .inl idle
  | move e faults =>
    cases e with
    | activate con => cases unasked
    | refresh con => cases unasked
    | reload => cases unasked
    | clear => exact .inl idle
    | shutdown => exact .inr rfl
    | start ticket => exact .inl (start_tally s.machine ticket s.store)
    | answer ticket now o => exact .inl (answer_tally s.machine ticket now o s.store)
    | abandon ticket =>
      refine .inl (.kept (Nat.le_refl _) ?_ rfl)
      exact outstanding_le (Nat.le_refl s.machine.calls) (length_eraseJob ticket s.machine)
    | fire => exact .inl (fire_tally s.machine)
    | retry => exact .inl (retry_tally s.machine s.store)

/-! ## The allowance in a run -/

theorem exists_of_isShutdown {e : Event} (shutdown : e.isShutdown = true) :
    ∃ faults, e = .move .shutdown faults := by
  unfold Event.isShutdown at shutdown
  split at shutdown
  · exact ⟨_, rfl⟩
  · cases shutdown

/-- A shutdown stops the timer and forgets the count. -/
theorem allowance_shutdown {e : Event} (shutdown : e.isShutdown = true)
    (counted : s.machine.IsCounted) :
    (s.begins e).toNat + (s.next e).machine.allowance ≤
      s.machine.allowance + s.machine.policy.maxAttempts := by
  obtain ⟨faults, rfl⟩ := exists_of_isShutdown shutdown
  have calls : { s.machine with sync := s.sync.resetRetry }.calls ≤ s.machine.calls :=
    calls_of_stopped rfl rfl
  have outstanding : { s.machine with sync := s.sync.resetRetry }.outstanding ≤
      s.machine.outstanding := outstanding_le calls (Nat.le_refl _)
  have product := Nat.mul_le_mul_right s.machine.policy.maxAttempts outstanding
  have counted : s.machine.sync.retry.attempt ≤ s.machine.policy.maxAttempts := counted
  show 0 + Machine.allowance { s.machine with sync := s.sync.resetRetry } ≤ _
  unfold Machine.allowance
  show 0 + (_ + (_ * s.machine.policy.maxAttempts - 0)) ≤ _
  omega

/-- The retries that begin in an event are taken out of the allowance. -/
theorem allowance_next {e : Event} (unasked : e.isUnasked = true) (counted : s.machine.IsCounted) :
    (s.begins e).toNat + (s.next e).machine.allowance ≤
      s.machine.allowance + shutdowns [e] * s.machine.policy.maxAttempts := by
  cases shutdown : e.isShutdown with
  | true =>
    have one : shutdowns [e] = 1 := by simp [shutdowns, shutdown]
    rw [one, Nat.one_mul]
    exact allowance_shutdown shutdown counted
  | false =>
    have tally := (tally_next (s := s) unasked).resolve_right (by simp [shutdown])
    exact Nat.le_add_right_of_le (tally.allowance_le counted (policy_next s e))

theorem shutdowns_cons (e : Event) (es : List Event) :
    shutdowns (e :: es) = shutdowns [e] + shutdowns es := by
  simp [shutdowns, List.countP_cons, Nat.add_comm]

/-- While nobody asks for anything, no more retries begin than the allowance and the shutdowns
permit. -/
theorem retries_add_allowance {es : List Event} (unasked : ∀ e ∈ es, e.isUnasked = true)
    (counted : s.machine.IsCounted) :
    s.retries es + (s.afterAll es).machine.allowance ≤
      s.machine.allowance + shutdowns es * s.machine.policy.maxAttempts := by
  induction es generalizing s with
  | nil => simp [Scene.retries, Scene.afterAll, shutdowns]
  | cons e es ih =>
    -- A step is paid for only while the count is within the attempts, so that goes along.
    have first := allowance_next (unasked e List.mem_cons_self) counted
    have rest := ih (fun e' he => unasked e' (List.mem_cons_of_mem e he)) (counted.next e)
    rw [policy_next] at rest
    rw [shutdowns_cons, Nat.add_mul]
    show (s.begins e).toNat + (s.next e).retries es + ((s.next e).afterAll es).machine.allowance ≤ _
    omega

/-- The allowance is no more than one retry and a whole series of stale answers for everything that
is outstanding. -/
theorem Machine.allowance_le (m : Machine r) :
    m.allowance ≤ m.outstanding * (m.policy.maxAttempts + 1) := by
  have calls := m.calls_le
  unfold Machine.allowance
  rw [Nat.mul_succ]
  omega

/-- Nothing is outstanding that a retry can come of. -/
theorem allowance_reload {store : Store} {m : Machine r} (idle : m.outstanding = 0) :
    (m.reload store).2.allowance ≤ (m.reload store).2.policy.maxAttempts := by
  obtain ⟨calls, outstanding, -⟩ := reload_tally m store
  have none := m.calls_le
  have product := Nat.mul_le_mul_right (m.reload store).2.policy.maxAttempts outstanding
  rw [idle, Nat.zero_add, Nat.one_mul] at product
  unfold Machine.allowance
  omega

/-- **Retries stop.** From whatever state a run has led to, and whatever the server answers, the
retry loop begins no more reloads, as long as nobody asks for a con or for a reload, than one for
everything outstanding and one for each attempt that this is good for; only a shutdown, which
forgets the count, permits as many more as there are attempts. A reload that is asked for while
nothing is outstanding is followed by no more retries than there are attempts, shutdowns apart. -/
theorem retries_le_outstanding {policy : Policy} {store : Store}
    (run : Run Allowed (.new policy store) past s) {es : List Event}
    (unasked : ∀ e ∈ es, e.isUnasked = true) :
    s.retries es ≤ s.machine.outstanding * (policy.maxAttempts + 1) +
      shutdowns es * policy.maxAttempts ∧
    ∀ faults, s.machine.outstanding = 0 → (s.next (.move .reload faults)).retries es ≤
      policy.maxAttempts + shutdowns es * policy.maxAttempts := by
  obtain ⟨counted, rfl⟩ := run.counted
  refine ⟨?_, fun faults idle => ?_⟩
  · have bound := retries_add_allowance unasked counted
    have allowance := s.machine.allowance_le
    omega
  · have bound := retries_add_allowance unasked (counted.next (.move .reload faults))
    have allowance : (s.next (.move .reload faults)).machine.allowance ≤
        (s.next (.move .reload faults)).machine.policy.maxAttempts := allowance_reload idle
    rw [policy_next] at bound allowance
    omega

/-- A retry that is stale again is the last one if there is but one attempt. -/
theorem one_attempt_one_retry :
    let start : Scene .pages := .new ⟨.ofMillis 1000, 1⟩ { kind := .database }
    let stale : Outcome Value := .success (.array []) none true
    let s := start.afterAll
      [.move (.activate "a") [], .move (.answer 0 0 (.success (.array []) none false)) []]
    let es : List Event := [.move (.answer 1 0 stale) [], .move .fire [], .move .retry [],
      .move (.answer 2 0 stale) [], .move .fire [], .move .retry []]
    (∃ past, Run (fun _ _ => True) start past s) ∧ (∀ e ∈ es, e.isUnasked = true) ∧
      s.machine.outstanding = 0 ∧ (s.next (.move .reload [])).retries es = 1 ∧
      (s.next (.move .reload [])).retries es ≤ 1 + shutdowns es * 1 := by
  intro start stale s es
  obtain ⟨past, run⟩ : ∃ past, Run (fun _ _ => True) start past s :=
    Run.nil.afterAll _ ⟨trivial, trivial, trivial⟩
  have unasked : ∀ e ∈ es, e.isUnasked = true := by simp [es, Event.isUnasked]
  have idle : s.machine.outstanding = 0 := by decide
  exact ⟨⟨past, run⟩, unasked, idle, by decide, (retries_le_outstanding run unasked).2 [] idle⟩

/-- The retries are shut down while the last of two that are allowed is out. Its answer is stale, is
counted as the first one, and makes for two more. -/
theorem retries_exceed_after_shutdown :
    let policy : Policy := ⟨.ofMillis 1000, 2⟩
    let start : Scene .pages := .new policy { kind := .database }
    let stale : Outcome Value := .success (.array []) none true
    let s := start.afterAll [.move (.activate "a") [], .move (.answer 0 0 stale) []]
    let es : List Event := [.move .fire [], .move .retry [], .move (.answer 1 0 stale) [],
      .move .fire [], .move .retry [], .move .shutdown [], .move (.answer 2 0 stale) [],
      .move .fire [], .move .retry [], .move (.answer 3 0 stale) [], .move .fire [],
      .move .retry []]
    (∃ past, Run (fun _ _ => True) start past s) ∧ (∀ e ∈ es, e.isUnasked = true) ∧
      s.retries es = 4 ∧ ¬ s.retries es ≤ s.machine.outstanding * (policy.maxAttempts + 1) := by
  intro policy start stale s es
  obtain ⟨past, run⟩ : ∃ past, Run (fun _ _ => True) start past s :=
    Run.nil.afterAll _ ⟨trivial, trivial, trivial⟩
  exact ⟨⟨past, run⟩, by simp [es, Event.isUnasked], by decide, by decide⟩

end OfflineSchedule.Sync
