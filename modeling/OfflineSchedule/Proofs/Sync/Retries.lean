import OfflineSchedule.Proofs.Sync.Run
/-!
# Retries after a reset

A fresh answer, a confirmation, a failure, the selection of another con and a shutdown stop the
timer of the retries. They do not take back what the timer has triggered already. While the retry
loop is busy with a slow reload, a trigger waits for it, and the loop takes it up after the reset.

So the retries that the loop begins after a reset, until an answer is stale again, are those that
waited at the reset: never more of them (`retries_add_triggers`), and as soon as the answers come,
all of them (`exists_retries`).
-/

namespace OfflineSchedule.Sync

open Http (Outcome)
open Json (Value)
open Retry (Moment Policy)

variable {r : Resource} {Allowed : Scene r → Event → Prop} {s : Scene r} {past : List (Incident r)}

/-! ## Resets and retries -/

/-- A reload that ends so resets the retries. -/
def Reload.resets : Reload → Bool
  | .updated false | .notModified | .failed _ => true
  | _ => false

/-- The event resets the retries: a reload ends so, another con is selected, or they are shut
down. -/
def Scene.Resets (s : Scene r) (e : Event) : Prop :=
  (∃ reload, s.progress e = .ended reload ∧ reload.resets = true) ∨
    (∃ con, e.activated? = some con ∧ s.sync.selected ≠ some con) ∨
    ∃ faults, e = .move .shutdown faults

/-- The event does not end a reload with stale data. -/
def NotStale (s : Scene r) (e : Event) : Prop := s.progress e ≠ .ended (.updated true)

/-- Only an answer is stale. -/
theorem notStale_of_ne_answer {e : Event}
    (other : ∀ ticket now o faults, e ≠ .move (.answer ticket now o) faults) : NotStale s e := by
  intro ended
  obtain ⟨ticket, now, o, faults, -, he, -⟩ := exists_answer_of_ended ended nofun
  exact other ticket now o faults he

/-- The retry loop begins a reload. -/
def Scene.begins (e : Event) (s : Scene r) : Bool :=
  match e with
  | .move .retry _ => s.progress e ≠ .done
  | _ => false

/-- How many reloads the retry loop begins in the course of some events. -/
def Scene.retries : List Event → Scene r → Nat
  | [], _ => 0
  | e :: es, s => (s.begins e).toNat + (s.next e).retries es

theorem Scene.retries_append (es es' : List Event) (s : Scene r) :
    s.retries (es ++ es') = s.retries es + (s.afterAll es).retries es' := by
  induction es generalizing s with
  | nil => exact (Nat.zero_add _).symm
  | cons e es ih =>
    show _ + (s.next e).retries (es ++ es') = _
    rw [ih, ← Nat.add_assoc]
    rfl

/-! ## The timer -/

theorem select_cases (con : String) (y : Sync r) :
    y.select con = y ∨ (y.select con).retry.timer = none := by
  unfold select
  split
  · exact .inl rfl
  · exact .inr rfl

theorem timer_fail (f : Flight) (code : Nat) (y : Sync r) : (y.fail f code).retry.timer = none := by
  unfold fail
  split <;> rfl

/-- An answer that counts stops the timer, unless it is stale. -/
theorem Settled.timer_cases {policy : Policy} {now : Moment} {f : Flight} {o : Outcome Value}
    {store store' : Store} {y y' : Sync r} {reload : Reload}
    (h : Settled policy now f o store y reload store' y') :
    reload = .superseded ∧ y' = y ∨ reload = .updated true ∨ y'.retry.timer = none := by
  cases h with
  | superseded => exact .inl ⟨rfl, rfl⟩
  | @updated _ _ _ stale =>
    cases stale with
    | true => exact .inr (.inl rfl)
    | false => exact .inr (.inr rfl)
  | notModified => exact .inr (.inr rfl)
  | @failed code => exact .inr (.inr (timer_fail f code y))

/-- Unless an answer is stale, the timer goes on for the con that is selected, or it is stopped. -/
theorem Act.timer_cases {i : Incident r} {s s' : Scene r} (h : Act i s s')
    (fresh : NotStale i.before i.event) :
    s'.sync.retry.timer = s.sync.retry.timer ∧ s'.sync.selected = s.sync.selected ∨
      s'.sync.retry.timer = none := by
  cases h with
  | @found con =>
    rcases select_cases con s.sync with same | stopped
    · exact .inl ⟨congrArg (·.retry.timer) same, congrArg (·.selected) same⟩
    · exact .inr stopped
  | settled _ _ _ progress settled =>
    rcases settled.timer_cases with ⟨-, same⟩ | stale | stopped
    · exact .inl ⟨congrArg (·.retry.timer) same, congrArg (·.selected) same⟩
    · exact absurd (stale ▸ progress) fresh
    · exact .inr stopped
  | begun => exact .inr rfl
  | started => exact .inr rfl
  | stopped => exact .inr rfl
  | fired => exact .inr rfl
  | _ => exact .inl ⟨rfl, rfl⟩

theorem timer_next_cases {e : Event} (fresh : NotStale s e) :
    (s.next e).sync.retry.timer = s.sync.retry.timer ∧
        (s.next e).sync.selected = s.sync.selected ∨
      (s.next e).sync.retry.timer = none := by
  refine acts_induction (I := fun s' => s'.sync.retry.timer = s.sync.retry.timer ∧
    s'.sync.selected = s.sync.selected ∨ s'.sync.retry.timer = none) (.inl ⟨rfl, rfl⟩)
    fun a b h ih => ?_
  rcases h.timer_cases fresh with ⟨timer, selected⟩ | stopped
  · rwa [timer, selected]
  · exact .inr stopped

/-! ## Triggers -/

/-- Only the timer leaves triggers, and only the retry loop takes them up. -/
theorem Act.triggers_eq {i : Incident r} {s s' : Scene r} (h : Act i s s')
    (fire : ∀ faults, i.event ≠ .move .fire faults)
    (retry : ∀ faults, i.event ≠ .move .retry faults) :
    s'.machine.triggers = s.machine.triggers := by
  cases h with
  | @fired faults event => exact absurd event (fire faults)
  | @taken faults event => exact absurd event (retry faults)
  | _ => rfl

theorem triggers_next {e : Event} (fire : ∀ faults, e ≠ .move .fire faults)
    (retry : ∀ faults, e ≠ .move .retry faults) :
    (s.next e).machine.triggers = s.machine.triggers :=
  acts_induction (I := fun s' => s'.machine.triggers = s.machine.triggers) rfl
    fun _ _ h same => (h.triggers_eq fire retry).trans same

theorem reload_triggers (m : Machine r) (store : Store) :
    (m.reload store).1 ≠ .done ∧ (m.reload store).2.triggers = m.triggers := by
  unfold Machine.reload
  split
  · exact ⟨nofun, rfl⟩
  · exact ⟨nofun, rfl⟩

/-- The retry loop takes up a trigger, or it is busy or has none. -/
theorem retry_cases (m : Machine r) (store : Store) :
    m.loop = none ∧ (m.retry store).1 ≠ .done ∧ (m.retry store).2.triggers + 1 = m.triggers ∨
      (m.loop.isSome = true ∨ m.triggers = 0) ∧ m.retry store = (.done, m) := by
  unfold Machine.retry
  split
  · rename_i busy
    exact .inr ⟨by simpa using busy, rfl⟩
  · rename_i free
    left
    obtain ⟨begun, triggers⟩ := reload_triggers { m with triggers := m.triggers - 1 } store
    simp only [Bool.or_eq_true, decide_eq_true_eq, not_or, Option.not_isSome_iff_eq_none] at free
    have waiting : m.triggers - 1 + 1 = m.triggers :=
      Nat.sub_add_cancel (Nat.one_le_iff_ne_zero.2 free.2)
    refine ⟨free.1, ?_⟩
    split <;> rename_i h
    · rw [h] at triggers
      exact ⟨nofun, (congrArg (· + 1) triggers).trans waiting⟩
    · exact ⟨begun, (congrArg (· + 1) triggers).trans waiting⟩

/-- While no timer runs, the triggers get fewer by the retries that begin. -/
theorem begins_add_triggers (stopped : s.sync.retry.timer = none) (e : Event) :
    (s.begins e).toNat + (s.next e).machine.triggers = s.machine.triggers := by
  by_cases fire : ∃ faults, e = .move .fire faults
  · obtain ⟨faults, rfl⟩ := fire
    have idle : s.machine.fire = s.machine := by
      simp [Machine.fire, isRetrying, Retry.Scheduler.isPending, stopped]
    show 0 + s.machine.fire.triggers = s.machine.triggers
    rw [idle, Nat.zero_add]
  · by_cases retry : ∃ faults, e = .move .retry faults
    · obtain ⟨faults, rfl⟩ := retry
      show (decide ((s.machine.retry s.store).1 ≠ .done)).toNat +
        (s.machine.retry s.store).2.triggers = s.machine.triggers
      rcases retry_cases s.machine s.store with ⟨-, begun, taken⟩ | ⟨-, idle⟩
      · rw [decide_eq_true begun, Bool.toNat_true]
        omega
      · simp [idle]
    · have idle : s.begins e = false := by
        unfold Scene.begins
        split
        · rename_i faults
          exact absurd ⟨faults, rfl⟩ retry
        · rfl
      rw [idle, triggers_next (not_exists.1 fire) (not_exists.1 retry)]
      exact Nat.zero_add _

/-- While no timer runs and no answer is stale, the retries that begin are as many as there are
triggers less. -/
theorem retries_add_triggers {es : List Event} (stopped : s.sync.retry.timer = none)
    (fresh : s.AllowsAll NotStale es) :
    s.retries es + (s.afterAll es).machine.triggers = s.machine.triggers ∧
      (s.afterAll es).sync.retry.timer = none := by
  induction es generalizing s with
  | nil => exact ⟨Nat.zero_add _, stopped⟩
  | cons e es ih =>
    have first := begins_add_triggers stopped e
    have stopped : (s.next e).sync.retry.timer = none :=
      (timer_next_cases fresh.1).elim (·.1.trans stopped) id
    obtain ⟨rest, stopped⟩ := ih stopped fresh.2
    exact ⟨by rw [Scene.retries, Scene.afterAll, Nat.add_assoc, rest, first], stopped⟩

/-- A reset stops the timer and leaves the triggers. -/
theorem Scene.Resets.next {e : Event} (reset : s.Resets e) :
    (s.next e).sync.retry.timer = none ∧ (s.next e).machine.triggers = s.machine.triggers := by
  rcases reset with ⟨reload, ended, resets⟩ | ⟨con, activated, other⟩ | ⟨faults, rfl⟩
  · obtain ⟨ticket, now, o, faults, f, rfl, waited, settled⟩ :=
      exists_answer_of_ended ended (by rintro rfl; cases resets)
    refine ⟨?_, triggers_next nofun nofun⟩
    rcases settled.timer_cases with ⟨rfl, -⟩ | rfl | stopped
    · cases resets
    · cases resets
    · exact stopped
  · have selected : (s.next e).sync.selected ≠ s.sync.selected := by
      rw [selected_next, activated]
      exact other.symm
    have fresh : NotStale s e := notStale_of_ne_answer fun ticket now o faults h => by
      subst h
      cases activated
    refine ⟨(timer_next_cases fresh).resolve_left fun h => selected h.2, triggers_next ?_ ?_⟩
    · rintro faults rfl
      cases activated
    · rintro faults rfl
      cases activated
  · exact ⟨rfl, rfl⟩

/-! ## What a reset leaves of the retries -/

/-- When the request of the retry loop fails, the loop is free. -/
theorem free_of_error {k : Nat} {f : Flight} (waits : s.Waits k f) (loop : s.machine.loop = some k)
    (code : Nat) :
    let e := Event.move (.answer k 0 (.error code)) []
    NotStale s e ∧ (s.next e).machine.loop = none := by
  intro e
  have performed := perform_answer waits 0 (.error code) []
  obtain ⟨reload, y, ended, settled⟩ : ∃ reload y,
      s.sync.settleFailure f code = (.ended reload, y) ∧
      Settled s.machine.policy 0 f (.error code) s.store s.sync reload s.store y :=
    settleFailure_settled (.error code) code
  have answered : s.sync.answer s.machine.policy 0 f (.error code) s.store =
      (.ended reload, s.store, y) := by
    simp [answer, ended]
  rw [answered] at performed
  have progress : s.progress e = .ended reload := congrArg Prod.fst performed
  have free : (s.next e).machine.loop = s.machine.loop.filter (· ≠ k) :=
    congrArg (·.2.machine.loop) performed
  refine ⟨fun stale => ?_, by simp [free, loop]⟩
  obtain rfl : reload = .updated true := Progress.ended.inj (progress.symm.trans stale)
  obtain ⟨_, _, _, success, -⟩ := settled.of_updated
  cases success

/-- A loop that is free takes up a trigger. -/
theorem begins_of_free (loop : s.machine.loop = none) (waiting : s.machine.triggers ≠ 0) :
    s.begins (.move .retry []) = true := by
  rcases retry_cases s.machine s.store with ⟨-, begun, -⟩ | ⟨idle, -⟩
  · exact decide_eq_true begun
  · simp [loop, waiting] at idle

/-- As soon as the loop is free, it begins a reload for a trigger that waits. -/
theorem exists_retry (ticketed : Ticketed s.machine) (stopped : s.sync.retry.timer = none)
    (waiting : s.machine.triggers ≠ 0) : ∃ es, s.AllowsAll NotStale es ∧ s.retries es = 1 := by
  have fresh : ∀ s : Scene r, NotStale s (.move .retry []) := fun _ => notStale_of_ne_answer nofun
  cases loop : s.machine.loop with
  | none =>
    refine ⟨[.move .retry []], ⟨fresh s, trivial⟩, ?_⟩
    simp [Scene.retries, begins_of_free loop waiting]
  | some k =>
    obtain ⟨f, waits⟩ := ticketed.fetching k loop
    obtain ⟨fresh', free⟩ := free_of_error waits loop 500
    have idle : s.begins (.move (.answer k 0 (.error 500)) []) = false := rfl
    have count := begins_add_triggers stopped (.move (.answer k 0 (.error 500)) [])
    rw [idle, Bool.toNat_false, Nat.zero_add] at count
    refine ⟨[.move (.answer k 0 (.error 500)) [], .move .retry []],
      ⟨fresh', fresh _, trivial⟩, ?_⟩
    simp [Scene.retries, idle, begins_of_free free (count ▸ waiting)]

/-- As soon as the answers come, all triggers are taken up. -/
theorem exists_retries (ticketed : Ticketed s.machine) (stopped : s.sync.retry.timer = none) :
    ∃ es, s.AllowsAll NotStale es ∧ s.retries es = s.machine.triggers := by
  induction triggers : s.machine.triggers generalizing s with
  | zero => exact ⟨[], trivial, rfl⟩
  | succ n ih =>
    obtain ⟨es, fresh, one⟩ := exists_retry ticketed stopped (by simp [triggers])
    obtain ⟨count, stopped'⟩ := retries_add_triggers stopped fresh
    obtain ⟨es', fresh', rest⟩ := ih (ticketed.afterAll es) stopped' (by omega)
    refine ⟨es ++ es', fresh.append fresh', ?_⟩
    rw [Scene.retries_append, one, rest, Nat.add_comm]

/-- **Retries after a reset.** From a reset until an answer is stale again, the retry loop begins a
reload for each trigger that has waited for it and for nothing else: those that it has begun and
those that still wait are together as many as have waited at the reset, and in some course of
events it begins them all. So it is sure to begin none if and only if none has waited. -/
theorem retries_after_reset {policy : Policy} {store : Store}
    (run : Run Allowed (.new policy store) past s) {e : Event} (reset : s.Resets e) :
    let s' := s.next e
    (∀ es, s'.AllowsAll NotStale es →
      s'.retries es + (s'.afterAll es).machine.triggers = s.machine.triggers) ∧
    (∃ es, s'.AllowsAll NotStale es ∧ s'.retries es = s.machine.triggers) ∧
    ((∀ es, s'.AllowsAll NotStale es → s'.retries es = 0) ↔ s.machine.triggers = 0) := by
  intro s'
  obtain ⟨stopped, triggers⟩ := reset.next
  have count : ∀ es, s'.AllowsAll NotStale es →
      s'.retries es + (s'.afterAll es).machine.triggers = s.machine.triggers :=
    fun es fresh => (retries_add_triggers stopped fresh).1.trans triggers
  have all : ∃ es, s'.AllowsAll NotStale es ∧ s'.retries es = s.machine.triggers :=
    triggers ▸ exists_retries (run.ticketed.next e) stopped
  refine ⟨count, all, fun none => ?_, fun zero es fresh => ?_⟩
  · obtain ⟨es, fresh, begun⟩ := all
    exact begun.symm.trans (none es fresh)
  · have := count es fresh
    omega

/-- A fresh answer stops the timer that a stale one has started. -/
theorem no_retry_after_fresh_answer :
    let start : Scene .pages := .new .standard { kind := .database }
    let s := start.afterAll
      [.move (.activate "a") [], .move (.answer 0 0 (.success (.array []) none true)) [],
        .move .reload []]
    let e := Event.move (.answer 1 0 (.success (.array []) none false)) []
    (∃ past, Run (fun _ _ => True) start past s) ∧ s.Resets e ∧ s.machine.triggers = 0 ∧
      ∀ es, (s.next e).AllowsAll NotStale es → (s.next e).retries es = 0 := by
  intro start s e
  obtain ⟨past, run⟩ : ∃ past, Run (fun _ _ => True) start past s :=
    Run.nil.afterAll _ ⟨trivial, trivial, trivial, trivial⟩
  have ended : s.progress e = .ended (.updated false) := by decide
  have reset : s.Resets e := .inl ⟨_, ended, rfl⟩
  have none : s.machine.triggers = 0 := by decide
  exact ⟨⟨past, run⟩, reset, none, (retries_after_reset run reset).2.2.2 none⟩

/-- While the first retry is slow, a reload gets a stale answer, and its timer leaves a trigger. The
retries are shut down then, and still the retry loop makes a request when the first retry ends. -/
theorem retry_begins_after_shutdown :
    let start : Scene .pages := .new .standard { kind := .database }
    let stale : Outcome Value := .success (.array []) none true
    let s := start.afterAll
      [.move (.activate "a") [], .move (.answer 0 0 stale) [], .move .fire [], .move .retry [],
        .move .reload [], .move (.answer 2 0 stale) [], .move .fire []]
    let e := Event.move .shutdown []
    let late := Event.move (.answer 1 0 (.error 500)) []
    (∃ past, Run (fun _ _ => True) start past s) ∧ s.Resets e ∧
      (s.next e).AllowsAll NotStale [late, .move .retry []] ∧
      ((s.next e).next late).progress (.move .retry []) = .sent 3 ⟨"a", 4, none⟩ ∧
      (s.next e).retries [late, .move .retry []] = 1 := by
  intro start stale s e late
  obtain ⟨past, run⟩ : ∃ past, Run (fun _ _ => True) start past s :=
    Run.nil.afterAll _ (by simp [Scene.AllowsAll])
  have fresh : (s.next e).AllowsAll NotStale [late, .move .retry []] :=
    ⟨by unfold NotStale; decide, by unfold NotStale; decide, trivial⟩
  exact ⟨⟨past, run⟩, .inr (.inr ⟨[], rfl⟩), fresh, by decide, by decide⟩

end OfflineSchedule.Sync
