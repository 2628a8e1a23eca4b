import OfflineSchedule.Retry.Timeline
/-!
# What a scheduler triggers, and when

The answers of a scheduler and its triggers, told from what has happened to it and not from what it
keeps. A stale answer is answered by how many delays have been returned in a row (`streak`). A delay
that was returned is in force until the next operation (`InForce`), and it leads to one trigger as
soon as the clock has reached its end. Nothing else triggers, so that the timer runs exactly while a
delay is in force whose end has not been reached (`Past.tracks`).
-/

namespace OfflineSchedule.Retry

/-! ## What has happened -/

/-- What has happened to a scheduler, the latest step first, each with its report. -/
abbrev Log := List (Step × Report)

/-- The steps that are reported in the log lead from `first` to `t`. -/
inductive Past (first : Timeline) : Log → Timeline → Prop where
  | nil : Past first [] first
  | step {log : Log} {t : Timeline} (past : Past first log t) (s : Step) :
      Past first ((s, (t.step s).1) :: log) (t.step s).2

/-- How much time a step takes. -/
def Step.nanos : Step → Nat
  | .advance nanos => nanos
  | _ => 0

/-- The clock after what has happened since `start`. -/
def clock (start : Nat) : Log → Nat
  | [] => start
  | (s, _) :: log => clock start log + s.nanos

/-- How many triggers were sent. -/
def triggers : Log → Nat
  | [] => 0
  | (_, report) :: log => triggers log + report.fired

/-- How many delays were returned since the scheduler was reset, was replaced, or gave up. -/
def streak : Log → Nat
  | [] => 0
  | (.stale, report) :: log => if report.delay.join.isSome then streak log + 1 else 0
  | (.reset, _) :: _ | (.replace, _) :: _ => 0
  | (.cancel, _) :: log | (.advance _, _) :: log => streak log

/-- The stale answer that was noted after `before` has returned the delay `d`, and no operation has
followed. -/
inductive InForce : Log → (before : Log) → (d : Duration) → Prop where
  | returned {before : Log} {report : Report} {d : Duration}
      (delay : report.delay = some (some d)) :
      InForce ((.stale, report) :: before) before d
  | waits {log before : Log} {d : Duration} (h : InForce log before d) (n : Nat) (report : Report) :
      InForce ((.advance n, report) :: log) before d

variable {first t : Timeline} {log before before' : Log} {d d' : Duration} {start : Nat}
  {p : Policy}

/-- One delay is in force at most. -/
theorem InForce.unique (h : InForce log before d) (h' : InForce log before' d') :
    before = before' ∧ d = d' := by
  induction h with
  | returned delay =>
    cases h' with
    | returned delay' =>
      rw [delay] at delay'
      cases delay'
      exact ⟨rfl, rfl⟩
  | waits _ _ _ ih =>
    cases h' with
    | waits h' => exact ih h'

/-- The reports of a run are those in the log. -/
theorem Past.run_eq (past : Past first log t) :
    first.run (log.reverse.map (·.1)) = log.reverse.map (·.2) ∧
      ∀ s steps, first.run (log.reverse.map (·.1) ++ s :: steps) =
        log.reverse.map (·.2) ++ t.run (s :: steps) := by
  induction past with
  | nil => exact ⟨rfl, fun _ _ => rfl⟩
  | @step log t past s ih =>
    have last := ih.2 s []
    simp only [Timeline.run] at last
    refine ⟨by simpa using last, fun s' steps => ?_⟩
    have more := ih.2 s (s' :: steps)
    rw [Timeline.run] at more
    simpa using more

/-! ## One step -/

namespace Scheduler

/-- A timer that is due runs no more. -/
theorem timer_fire (now : Moment) (q : Scheduler) (due : Moment) :
    (q.fire now).2.timer = some due ↔ q.timer = some due ∧ now < due := by
  obtain ⟨attempt, timer⟩ := q
  cases timer with
  | none => simp [fire, isDue]
  | some other =>
    by_cases reached : other ≤ now
    · have past : other = due → due ≤ now := fun same => same ▸ reached
      simpa [fire, isDue, reached] using past
    · have ahead : other = due → now < due := fun same => same ▸ Nat.lt_of_not_le reached
      simpa [fire, isDue, reached] using ahead

theorem attempt_fire (now : Moment) (q : Scheduler) : (q.fire now).2.attempt = q.attempt := by
  unfold fire
  split <;> rfl

/-- A timer that is due triggers once. -/
theorem fired_eq (now : Moment) (q : Scheduler) :
    (∃ due, q.timer = some due ∧ due ≤ now) ∧ (q.fire now).1 = 1 ∨
      (∀ due, q.timer = some due → now < due) ∧ (q.fire now).1 = 0 := by
  obtain ⟨attempt, timer⟩ := q
  cases timer with
  | none => simp [fire, isDue]
  | some other =>
    by_cases reached : other ≤ now
    · left
      simp [fire, isDue, reached]
    · right
      simp [fire, isDue, reached, Nat.lt_of_not_le reached]

end Scheduler

namespace Timeline

variable (t : Timeline) (s : Step)

theorem policy_step : (t.step s).2.policy = t.policy := by cases s <;> rfl

theorem now_step : (t.step s).2.now = t.now + s.nanos := by cases s <;> rfl

/-- The timer after a step is the one that its operation has left, if it has not ended by then. -/
theorem timer_step (due : Moment) :
    (t.step s).2.scheduler.timer = some due ↔
      (t.apply s).2.scheduler.timer = some due ∧ (t.step s).2.now < due :=
  Scheduler.timer_fire _ _ due

theorem attempt_step : (t.step s).2.scheduler.attempt = (t.apply s).2.scheduler.attempt :=
  Scheduler.attempt_fire _ _

/-- How a stale answer is answered. -/
theorem delay_step_stale :
    (t.step .stale).1.delay =
      some (if t.policy.maxAttempts ≤ t.scheduler.attempt then none
        else some (t.policy.delayFor (t.scheduler.attempt + 1))) := by
  show some (t.scheduler.onStale t.policy t.now).1 = _
  unfold Scheduler.onStale
  split <;> rfl

end Timeline

/-! ## What the scheduler keeps -/

/-- The scheduler keeps the streak, and the end of the delay in force until it is reached. -/
structure Tracks (p : Policy) (start : Nat) (log : Log) (t : Timeline) : Prop where
  policy : t.policy = p
  now : t.now = clock start log
  attempt : t.scheduler.attempt = streak log
  attempt_le : t.scheduler.attempt ≤ p.maxAttempts
  timer : ∀ due, t.scheduler.timer = some due ↔
    ∃ before d, InForce log before d ∧ due = clock start before + d.nanos ∧ clock start log < due

namespace Tracks

/-- The timer that an operation leaves ends with the delay in force, if it has not ended before. -/
theorem timer_apply (h : Tracks p start log t) (s : Step) (due : Moment) :
    (t.apply s).2.scheduler.timer = some due ↔
      ∃ before d, InForce ((s, (t.step s).1) :: log) before d ∧
        due = clock start before + d.nanos ∧ (s = .stale ∨ clock start log < due) := by
  cases s with
  | stale =>
    have answer := t.delay_step_stale
    show (t.scheduler.onStale t.policy t.now).2.timer = some due ↔ _
    by_cases spent : t.policy.maxAttempts ≤ t.scheduler.attempt
    · rw [if_pos spent] at answer
      rw [Scheduler.onStale_spent spent]
      refine ⟨nofun, ?_⟩
      rintro ⟨_, d, returned, -⟩
      cases returned with
      | returned delay => simp [answer] at delay
    · rw [if_neg spent] at answer
      rw [Scheduler.onStale_next (Nat.lt_of_not_le spent), h.now]
      constructor
      · intro ends
        cases ends
        exact ⟨log, _, .returned answer, rfl, .inl rfl⟩
      · rintro ⟨_, d, returned, rfl, -⟩
        cases returned with
        | returned delay =>
          rw [answer] at delay
          cases delay
          rfl
  | advance n =>
    show t.scheduler.timer = some due ↔ _
    rw [h.timer]
    constructor
    · rintro ⟨before, d, inForce, ends, ahead⟩
      exact ⟨before, d, inForce.waits n _, ends, .inr ahead⟩
    · rintro ⟨before, d, inForce, ends, ahead⟩
      cases inForce with
      | waits inForce => exact ⟨before, d, inForce, ends, ahead.resolve_left nofun⟩
  | reset => exact ⟨nofun, fun ⟨_, _, inForce, _⟩ => nomatch inForce⟩
  | cancel => exact ⟨nofun, fun ⟨_, _, inForce, _⟩ => nomatch inForce⟩
  | replace => exact ⟨nofun, fun ⟨_, _, inForce, _⟩ => nomatch inForce⟩

theorem attempt_apply (h : Tracks p start log t) (s : Step) :
    (t.apply s).2.scheduler.attempt = streak ((s, (t.step s).1) :: log) ∧
      (t.apply s).2.scheduler.attempt ≤ p.maxAttempts := by
  have le := h.attempt_le
  cases s with
  | stale =>
    have answer := t.delay_step_stale
    show (t.scheduler.onStale t.policy t.now).2.attempt = _ ∧
      (t.scheduler.onStale t.policy t.now).2.attempt ≤ _
    rw [streak, answer, ← h.attempt]
    by_cases spent : t.policy.maxAttempts ≤ t.scheduler.attempt
    · simp [Scheduler.onStale_spent spent, spent]
    · have next := Nat.lt_of_not_le spent
      rw [Scheduler.onStale_next next]
      rw [h.policy] at next
      simp [spent, Nat.succ_le_of_lt next]
  | reset => exact ⟨rfl, Nat.zero_le _⟩
  | cancel => exact ⟨h.attempt, le⟩
  | replace => exact ⟨rfl, Nat.zero_le _⟩
  | advance n => exact ⟨h.attempt, le⟩

theorem step (h : Tracks p start log t) (s : Step) :
    Tracks p start ((s, (t.step s).1) :: log) (t.step s).2 := by
  have now : (t.step s).2.now = clock start ((s, (t.step s).1) :: log) := by
    rw [t.now_step, clock, h.now]
  obtain ⟨attempt, attempt_le⟩ := h.attempt_apply s
  refine ⟨(t.policy_step s).trans h.policy, now, (t.attempt_step s).trans attempt,
    t.attempt_step s ▸ attempt_le, fun due => ?_⟩
  rw [t.timer_step, h.timer_apply, now]
  constructor
  · rintro ⟨⟨before, d, inForce, ends, -⟩, ahead⟩
    exact ⟨before, d, inForce, ends, ahead⟩
  · rintro ⟨before, d, inForce, ends, ahead⟩
    have later : clock start log < due := by
      rw [clock] at ahead
      omega
    exact ⟨⟨before, d, inForce, ends, .inr later⟩, ahead⟩

/-- A step triggers once if the clock reaches the end of the delay in force, and not otherwise. -/
theorem fired (h : Tracks p start log t) {s : Step}
    (inForce : InForce ((s, (t.step s).1) :: log) before d) :
    (t.step s).1.fired =
      if (s = .stale ∨ clock start log < clock start before + d.nanos) ∧
        clock start before + d.nanos ≤ clock start ((s, (t.step s).1) :: log) then 1 else 0 := by
  have now := (h.step s).now
  rcases Scheduler.fired_eq (t.step s).2.now (t.apply s).2.scheduler with
    ⟨⟨due, timer, reached⟩, fired⟩ | ⟨ahead, fired⟩
  · obtain ⟨_, _, inForce', rfl, unreached⟩ := (h.timer_apply s due).1 timer
    obtain ⟨rfl, rfl⟩ := inForce.unique inForce'
    rw [if_pos ⟨unreached, now ▸ reached⟩]
    exact fired
  · rw [if_neg]
    · exact fired
    · rintro ⟨unreached, reached⟩
      have later := ahead _ ((h.timer_apply s _).2 ⟨before, d, inForce, rfl, unreached⟩)
      exact Nat.not_lt.2 reached (now ▸ later)

/-- No step triggers while no delay is in force. -/
theorem fired_of_none (h : Tracks p start log t) {s : Step}
    (none : ∀ before d, ¬ InForce ((s, (t.step s).1) :: log) before d) :
    (t.step s).1.fired = 0 := by
  rcases Scheduler.fired_eq (t.step s).2.now (t.apply s).2.scheduler with
    ⟨⟨due, timer, -⟩, -⟩ | ⟨-, fired⟩
  · obtain ⟨before, d, inForce, -⟩ := (h.timer_apply s due).1 timer
    exact absurd inForce (none before d)
  · exact fired

theorem isPending_iff (h : Tracks p start log t) :
    t.scheduler.isPending = true ↔
      ∃ before d, InForce log before d ∧ clock start log < clock start before + d.nanos := by
  rw [Scheduler.isPending, Option.isSome_iff_exists]
  constructor
  · rintro ⟨due, timer⟩
    obtain ⟨before, d, inForce, rfl, ahead⟩ := (h.timer due).1 timer
    exact ⟨before, d, inForce, ahead⟩
  · rintro ⟨before, d, inForce, ahead⟩
    exact ⟨_, (h.timer _).2 ⟨before, d, inForce, rfl, ahead⟩⟩

end Tracks

theorem Past.tracks (past : Past { policy := p, now := start } log t) : Tracks p start log t := by
  induction past with
  | nil =>
    exact ⟨rfl, rfl, rfl, Nat.zero_le _,
      fun due => ⟨nofun, fun ⟨_, _, inForce, _⟩ => nomatch inForce⟩⟩
  | step _ s ih => exact ih.step s

/-! ## Triggers -/

/-- Since a delay was returned that is still in force, one trigger was sent if its end has been
reached, and none otherwise. -/
theorem Past.triggers_eq (past : Past { policy := p, now := start } log t)
    (inForce : InForce log before d) :
    triggers log =
      triggers before + if clock start before + d.nanos ≤ clock start log then 1 else 0 := by
  induction inForce generalizing t with
  | returned delay =>
    cases past with
    | step past =>
      have fired := past.tracks.fired (.returned delay)
      rw [triggers, fired]
      simp
  | @waits log before d inForce n _ ih =>
    cases past with
    | @step _ t past =>
      have fired := past.tracks.fired (.waits inForce n _)
      have passes : clock start ((.advance n, (t.step (.advance n)).1) :: log) =
        clock start log + n := rfl
      rw [triggers, fired, ih past]
      simp only [reduceCtorEq, false_or]
      -- The end was reached before this step, or in it, or it is still ahead.
      split <;> split <;> split <;> omega

/-- **What a scheduler triggers.** Let anything happen to a new scheduler. A stale answer is answered
by no delay exactly if as many delays as there are attempts have been returned since the scheduler
was reset, was replaced or gave up; otherwise the answer is the delay of the next attempt, whether or
not a timer was stopped in between. A delay is in force until the next operation, and since it was
returned one trigger was sent if the clock has reached its end, and none otherwise. A step that
leaves no delay in force triggers nothing. A timer runs exactly while a delay is in force whose end
is ahead, and there is one such delay at most. -/
theorem one_trigger_for_each_delay (past : Past { policy := p, now := start } log t) :
    (Timeline.mk p start {}).run (log.reverse.map (·.1)) = log.reverse.map (·.2) ∧
    t.now = clock start log ∧ streak log ≤ p.maxAttempts ∧
    (t.step .stale).1.delay =
      some (if streak log = p.maxAttempts then none else some (p.delayFor (streak log + 1))) ∧
    (∀ before d, InForce log before d → triggers log =
      triggers before + if clock start before + d.nanos ≤ clock start log then 1 else 0) ∧
    (∀ s, (∀ before d, ¬ InForce ((s, (t.step s).1) :: log) before d) →
      (t.step s).1.fired = 0) ∧
    (t.scheduler.isPending = true ↔
      ∃ before d, InForce log before d ∧ clock start log < clock start before + d.nanos) ∧
    ∀ before d before' d', InForce log before d → InForce log before' d' →
      before = before' ∧ d = d' := by
  have tracks := past.tracks
  have attempt := tracks.attempt
  refine ⟨past.run_eq.1, tracks.now, attempt ▸ tracks.attempt_le, ?_, fun _ _ => past.triggers_eq,
    fun _ => tracks.fired_of_none, tracks.isPending_iff, fun _ _ _ _ h h' => h.unique h'⟩
  have le := tracks.attempt_le
  rw [t.delay_step_stale, tracks.policy, ← attempt]
  by_cases spent : t.scheduler.attempt = p.maxAttempts
  · simp [spent]
  · rw [if_neg (by omega), if_neg spent]

/-- The second of two delays has replaced the first one before its end, and triggers at its own. No
third one is returned. -/
theorem second_delay_triggers :
    let p : Policy := ⟨.clamp 1000, 2⟩
    let steps : List Step := [.stale, .advance 400, .stale, .advance 1999, .advance 1]
    ∃ log t, Past { policy := p, now := 0 } log t ∧ log.reverse.map (·.1) = steps ∧
      triggers log.tail = 0 ∧ triggers log = 1 ∧ t.now = 2400 ∧
      (t.step .stale).1.delay = some none := by
  intro p steps
  have past : Past { policy := p, now := 0 } _ _ :=
    ((((Past.nil.step .stale).step (.advance 400)).step .stale).step (.advance 1999)).step
      (.advance 1)
  obtain ⟨-, now, -, answer, sent, -⟩ := one_trigger_for_each_delay past
  have one := sent _ (.clamp 2000) (.waits (.waits (.returned (by decide)) _ _) _ _)
  exact ⟨_, _, past, rfl, by decide, one.trans (by decide), now.trans (by decide),
    answer.trans (by decide)⟩

end OfflineSchedule.Retry
