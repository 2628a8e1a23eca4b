import OfflineSchedule.Proofs.Sync.Allowance
import OfflineSchedule.Proofs.Sync.Offline
/-!
# An activation by itself

An activation finds its con on display, or shows what the store has for it, or reloads it. Which of
these happens depends on what is selected and on display and on the text in the store; what has
happened before matters only for the revalidation, which is left to the background once.

A reload that nothing disturbs makes at most two requests. Its answer always counts, as no later
number is given out meanwhile, so that there is something to show when the call returns.
-/

namespace OfflineSchedule.Sync

open Http (Outcome)
open Json (Value)
open Retry (Moment Policy Scheduler)

variable {r : Resource} {Allowed : Scene r → Event → Prop} {s s' : Scene r}
  {past : List (Incident r)} {policy : Policy} {store : Store} {con : String}

/-! ## Calls by themselves -/

/-- What comes from outside while a call waits: an answer, the moment when it comes, and the
operations of the store that fail by then. -/
structure Reply where
  now : Moment
  outcome : Outcome Value
  failing : List StoreOperation

namespace Scene

/-- The answer to the request of a ticket comes. -/
def reply (ticket : Nat) (a : Reply) (s : Scene r) : Progress × Scene r :=
  { s with store := { s.store with failing := a.failing } }.perform
    (.move (.answer ticket a.now a.outcome) [])

/-- What a call comes to whose request gets the answer `first` and, if it is made again, the answer
`second`. -/
def complete (first second : Reply) : Progress × Scene r → Progress × Scene r
  | (.sent ticket _, s) =>
    match s.reply ticket first with
    | (.sent _ _, s) => s.reply ticket second
    | result => result
  | result => result

/-- What an event comes to by itself. -/
def alone (e : Event) (first second : Reply) (s : Scene r) : Progress × Scene r :=
  complete first second (s.perform e)

/-- The con is selected, and these operations of the store fail. -/
def selecting (con : String) (faults : List StoreOperation) (s : Scene r) : Scene r :=
  ⟨{ s.store with failing := faults }, { s.machine with sync := s.sync.select con }⟩

/-- A call that makes no request waits for nothing. -/
theorem alone_of_unsent {e : Event} {p : Progress} (performed : s.perform e = (p, s'))
    (unsent : ∀ ticket f, p ≠ .sent ticket f) (first second : Reply) :
    s.alone e first second = (p, s') := by
  rw [alone, performed]
  cases p with
  | sent ticket f => exact absurd rfl (unsent ticket f)
  | _ => rfl

end Scene

/-! ## A reload by itself -/

/-- A reload for the con has ended and counts: there is something to show, and the count of the
retries starts again, unless this reload is counted. -/
structure Concluded (policy : Policy) (con : String) (y : Sync r) (reload : Reload) (y' : Sync r) :
    Prop where
  counts : reload ≠ .superseded
  begun : reload ≠ .noInstance
  selected : y'.selected = some con
  told : y'.status = .success ∨ y'.status = .error
  retry : y'.retry = {} ∨
    reload = .updated true ∧ ∃ now, y'.retry = (y.retry.onStale policy now).2

theorem status_fail_told {f : Flight} {y : Sync r} (code : Nat)
    (selected : y.selected = some f.con) :
    (y.fail f code).status = .success ∨ (y.fail f code).status = .error := by
  unfold fail
  split
  · rename_i shows
    simp only [Bool.and_eq_true] at shows
    exact .inl (status_eq_success.2 ⟨selected.symm, shows.1⟩)
  · right
    have owned : some f.con = y.selected := selected.symm
    simp [status, current, publish, resetRetry, owned, Published.status]

theorem Settled.concluded {now : Moment} {f : Flight} {o : Outcome Value} {store' : Store}
    {y y' : Sync r} {reload : Reload} (settled : Settled policy now f o store y reload store' y')
    (latest : y.isLatest f = true) (selected : y.selected = some f.con) :
    Concluded policy f.con y reload y' := by
  have counts : reload ≠ .superseded := by
    rintro rfl
    cases settled with
    | superseded late => simp [latest] at late
  refine ⟨counts, ?_, settled.keeps.2.trans selected, ?_, ?_⟩
  · rintro rfl
    cases settled
  · cases settled with
    | superseded => exact absurd rfl counts
    | @updated _ _ _ stale => left; cases stale <;> exact status_display selected rfl rfl
    | notModified => exact .inl (status_display selected rfl rfl)
    | @failed code => exact status_fail_told code selected
  · rcases settled.retry_cases with ⟨superseded, -⟩ | ⟨stale, retry⟩ | ⟨-, reset⟩
    · exact absurd superseded counts
    · exact .inr ⟨stale, now, retry⟩
    · exact .inl reset

/-- An answer to the latest request ends its reload, or the request is made again, without a
condition. -/
theorem reply_cases {ticket : Nat} {f : Flight} (waited : s.Waits ticket f)
    (latest : s.sync.isLatest f = true) (selected : s.sync.selected = some f.con) (a : Reply) :
    (∃ reload s', s.reply ticket a = (.ended reload, s') ∧
      Concluded s.machine.policy f.con s.sync reload s'.sync) ∨
    f.etag.isSome = true ∧ ∃ s', s.reply ticket a = (.sent ticket { f with etag := none }, s') ∧
      s'.Waits ticket { f with etag := none } ∧ s'.sync = s.sync ∧
      s'.machine.policy = s.machine.policy := by
  have waited : Scene.Waits ticket f { s with store := { s.store with failing := a.failing } } :=
    waited
  unfold Scene.reply
  rw [perform_answer waited]
  rcases answer_cases s.machine.policy a.now f a.outcome { s.store with failing := a.failing }
    s.sync with ⟨reload, store, y, answered, settled⟩ | ⟨answered, -, -, asked⟩
  · rw [answered]
    exact .inl ⟨reload, _, rfl, settled.concluded latest selected⟩
  · rw [answered]
    exact .inr ⟨asked, _, rfl, (Machine.job?_setJob _ _ _ _).trans (if_pos rfl), rfl, rfl⟩

/-- A call that has made the latest request ends with its reload. -/
theorem complete_sent {ticket : Nat} {f : Flight} (waited : s.Waits ticket f)
    (latest : s.sync.isLatest f = true) (selected : s.sync.selected = some f.con)
    (first second : Reply) :
    ∃ reload s', Scene.complete first second (.sent ticket f, s) = (.ended reload, s') ∧
      Concluded s.machine.policy f.con s.sync reload s'.sync := by
  unfold Scene.complete
  rcases reply_cases waited latest selected first with
    ⟨reload, s', replied, concluded⟩ | ⟨-, s', replied, waits, sync, policy⟩
  · simp only [replied]
    exact ⟨reload, s', rfl, concluded⟩
  · simp only [replied]
    rw [← sync] at latest selected
    rcases reply_cases waits latest selected second with
      ⟨reload, s'', replied, concluded⟩ | ⟨asked, -⟩
    · exact ⟨reload, s'', replied, sync ▸ policy ▸ concluded⟩
    · cases asked

/-! ## The step of an activation -/

theorem perform_activate_of_showing (showing : s.sync.isShowing con = true)
    (faults : List StoreOperation) :
    s.perform (.move (.activate con) faults) = (.unchanged, s) := by
  rcases activate_cases con s.store s.sync with ⟨-, activated⟩ | ⟨hidden, -⟩ | ⟨_, _, hidden, -⟩
  · simp only [Scene.perform, Machine.step, Machine.beside, Machine.activate]
    rw [show s.machine.sync.activate con s.store = _ from activated]
  · simp [showing] at hidden
  · simp [showing] at hidden

/-- What is cached is shown, and a revalidation is left to the background unless there was one. -/
theorem perform_activate_of_usable {value : r.Live} {etag : Option String}
    (hidden : s.sync.isShowing con = false)
    (usable : Cache.usable? r s.store con = some (value, etag)) (faults : List StoreOperation) :
    ∃ revalidation s', s.perform (.move (.activate con) faults) = (.cached revalidation, s') ∧
      s'.store = s.store ∧ s'.sync = s.sync.found con value etag ∧
      (revalidation.isSome = true ↔ s.sync.revalidated = false) ∧
      ∀ k, revalidation = some k → s'.machine.job? k = some .queued := by
  rcases activate_cases con s.store s.sync with
    ⟨showing, -⟩ | ⟨-, unusable, -⟩ | ⟨value', etag', -, usable', activated⟩
  · simp [hidden] at showing
  · simp [usable] at unusable
  · obtain ⟨rfl, rfl⟩ := Prod.mk.inj (Option.some.inj (usable.symm.trans usable'))
    simp only [Scene.perform, Machine.step, Machine.beside, Machine.activate]
    rw [show s.machine.sync.activate con s.store = _ from activated]
    cases s.sync.revalidated with
    | true =>
      refine ⟨_, _, rfl, rfl, rfl, by simp, ?_⟩
      rintro k ⟨⟩
    | false =>
      refine ⟨_, _, rfl, rfl, rfl, by simp, ?_⟩
      rintro k ⟨rfl⟩
      exact (Machine.job?_setJob _ _ _ _).trans (if_pos rfl)

/-- What is not cached is reloaded. -/
theorem perform_activate_of_unusable (hidden : s.sync.isShowing con = false)
    (unusable : Cache.usable? r s.store con = none) (faults : List StoreOperation) :
    ∃ m, s.perform (.move (.activate con) faults) = (.sent s.machine.nextTicket
        (s.sync.request con { s.store with failing := faults }), ⟨s.store, m⟩) ∧
      (s.selecting con faults).perform (.move .reload faults) = (.sent s.machine.nextTicket
        (s.sync.request con { s.store with failing := faults }),
          ⟨{ s.store with failing := faults }, m⟩) ∧
      m.job? s.machine.nextTicket =
        some (.fetching (s.sync.request con { s.store with failing := faults })) ∧
      m.sync = s.sync.begun con ∧ m.policy = s.machine.policy := by
  rcases activate_cases con s.store s.sync with
    ⟨showing, -⟩ | ⟨-, -, activated⟩ | ⟨_, _, -, usable, -⟩
  · simp [hidden] at showing
  · simp only [Scene.perform, Machine.step, Machine.beside, Machine.activate, Scene.selecting,
      Machine.reload, issue_select]
    rw [show s.machine.sync.activate con s.store = _ from activated]
    simp only [issue_select]
    exact ⟨_, rfl, rfl, (Machine.job?_setJob _ _ _ _).trans (if_pos rfl), rfl, rfl⟩
  · simp [unusable] at usable

/-! ## The one revalidation -/

/-- The value of the con is not on display, but can be used. -/
def finds (con : String) (store : Store) (y : Sync r) : Bool :=
  !y.isShowing con && (Cache.usable? r store con).isSome

/-- An activation in the incident shows what is cached of its con. -/
def Incident.servesCached (i : Incident r) : Bool :=
  i.event.activated?.any fun con => i.before.sync.finds con i.before.store

theorem revalidated_reload (m : Machine r) (store : Store) :
    (m.reload store).2.sync.revalidated = m.sync.revalidated := by
  unfold Machine.reload
  cases selected : m.sync.selected with
  | none => rw [issue_of_unselected selected]
  | some con =>
    rw [issue_of_selected selected]
    exact revalidated_select con m.sync

theorem revalidated_activate (m : Machine r) (con : String) (store : Store)
    (faults : List StoreOperation) : (m.activate con store faults).2.sync.revalidated =
      (m.sync.revalidated || m.sync.finds con store) := by
  unfold Machine.activate finds
  rcases activate_cases con store m.sync with
    ⟨showing, activated⟩ | ⟨hidden, unusable, activated⟩ | ⟨_, _, hidden, usable, activated⟩
  · rw [activated, showing]
    simp
  · rw [activated, hidden, unusable, revalidated_reload]
    simp
  · rw [activated, hidden, usable]
    cases m.sync.revalidated <;> rfl

theorem revalidated_refresh (m : Machine r) (con : String) (store : Store)
    (faults : List StoreOperation) : (m.refresh con store faults).2.sync.revalidated =
      (m.sync.revalidated || m.sync.finds con store) := by
  have activated := revalidated_activate m con store faults
  unfold Machine.refresh
  split <;> rename_i h
  · rwa [h] at activated
  · rw [h] at activated
    rwa [revalidated_reload]
  · rw [h] at activated
    rwa [revalidated_reload]
  · exact activated

theorem Settled.revalidated {now : Moment} {f : Flight} {o : Outcome Value} {store' : Store}
    {y y' : Sync r} {reload : Reload} (settled : Settled policy now f o store y reload store' y') :
    y'.revalidated = y.revalidated := by
  cases settled with
  | superseded => rfl
  | @updated _ _ _ stale => cases stale <;> rfl
  | notModified => rfl
  | failed =>
    unfold fail
    split <;> rfl

theorem revalidated_next (s : Scene r) (e : Event) : (s.next e).sync.revalidated =
    (s.sync.revalidated || (⟨s, e⟩ : Incident r).servesCached) := by
  have unactivated (h : (s.next e).sync.revalidated = s.sync.revalidated)
      (other : e.activated? = none) : (s.next e).sync.revalidated =
        (s.sync.revalidated || (⟨s, e⟩ : Incident r).servesCached) := by
    simp [Incident.servesCached, other, h]
  cases e with
  | interference store => exact unactivated rfl rfl
  | move m faults =>
    cases m with
    | activate con => exact revalidated_activate s.machine con s.store faults
    | refresh con => exact revalidated_refresh s.machine con s.store faults
    | reload => exact unactivated (revalidated_reload s.machine s.store) rfl
    | clear => exact unactivated rfl rfl
    | shutdown => exact unactivated rfl rfl
    | abandon ticket => exact unactivated rfl rfl
    | start ticket =>
      refine unactivated ?_ rfl
      show (s.machine.start ticket s.store).2.sync.revalidated = s.sync.revalidated
      unfold Machine.start
      split
      · cases selected : s.sync.selected with
        | none => rw [issue_of_unselected selected]; rfl
        | some con =>
          rw [issue_of_selected selected]
          exact revalidated_select con s.sync
      · rfl
    | answer ticket now o =>
      refine unactivated ?_ rfl
      rcases waits_or_idle s ticket with ⟨f, waited⟩ | idle
      · rcases next_answer waited now o faults with ⟨reload, -, settled⟩ | ⟨-, -, -, -, sync⟩
        · exact settled.revalidated
        · rw [sync]
      · rw [Scene.next, perform_answer_idle idle]
    | fire =>
      refine unactivated ?_ rfl
      show s.machine.fire.sync.revalidated = s.sync.revalidated
      unfold Machine.fire
      split <;> rfl
    | retry =>
      refine unactivated ?_ rfl
      show (s.machine.retry s.store).2.sync.revalidated = s.sync.revalidated
      unfold Machine.retry
      split
      · rfl
      · have same :=
          revalidated_reload { s.machine with triggers := s.machine.triggers - 1 } s.store
        split <;> rename_i h
        · rw [h] at same
          exact same
        · exact same

/-- A value out of the cache has been revalidated once as soon as one was shown. -/
theorem Run.revalidated (run : Run Allowed (.new policy store) past s) :
    s.sync.revalidated = past.any (·.servesCached) := by
  induction run with
  | nil => rfl
  | @cons past s e _ _ ih => rw [revalidated_next, ih, Bool.or_comm, List.any_cons]

/-! ## The protocol -/

theorem isShowing_eq_true_iff {y : Sync r} :
    y.isShowing con = true ↔ y.selected = some con ∧ y.status = .success := by
  rw [isShowing_iff, status_eq_success]
  constructor
  · rintro ⟨selected, owner, success⟩
    exact ⟨selected, owner.trans selected.symm, success⟩
  · rintro ⟨selected, owner, success⟩
    exact ⟨selected, owner.trans selected, success⟩

/-- Retries belong to the con that was selected before. -/
theorem retry_select_of_ne {y : Sync r} (other : y.selected ≠ some con) :
    (y.select con).retry = {} := by
  rw [select, if_neg other]
  rfl

theorem retry_begun_of_ne {y : Sync r} (other : y.selected ≠ some con) :
    (y.begun con).retry = {} :=
  congrArg Scheduler.cancelPending (retry_select_of_ne other)

/-- A con without a usable record is reloaded, and the call ends as the reload does. -/
theorem alone_of_unusable (hidden : s.sync.isShowing con = false)
    (unusable : Cache.usable? r s.store con = none) (faults : List StoreOperation)
    (first second : Reply) :
    let e := Event.move (.activate con) faults
    ∃ reload s', s.alone e first second = (.ended reload, s') ∧
      s.progress e = .sent s.machine.nextTicket
        (s.sync.request con { s.store with failing := faults }) ∧
      (s.selecting con faults).alone (.move .reload faults) first second = (.ended reload, s') ∧
      (s.next e).sync = s.sync.begun con ∧
      Concluded s.machine.policy con (s.sync.begun con) reload s'.sync := by
  intro e
  obtain ⟨m, performed, reloaded, waits, sync, policy⟩ :=
    perform_activate_of_unusable hidden unusable faults
  have latest : m.sync.isLatest (s.sync.request con { s.store with failing := faults }) := by
    rw [sync]
    exact isLatest_iff.2 rfl
  have selected : m.sync.selected = some con := by rw [sync, selected_begun]
  obtain ⟨reload, s', completed, concluded⟩ :=
    complete_sent (s := ⟨s.store, m⟩) waits latest selected first second
  refine ⟨reload, s', ?_, congrArg Prod.fst performed, ?_, ?_, sync ▸ policy ▸ concluded⟩
  · rw [Scene.alone, performed]
    exact completed
  · -- What fails by the time of an answer is what the answer says.
    rw [Scene.alone, reloaded]
    exact completed
  · have next : s.next e = ⟨s.store, m⟩ := congrArg Prod.snd performed
    rw [next]
    exact sync

/-- **Activation.** Let a con be activated after any run, over any store, and let the call return
before anything else happens but the answers that it waits for. If the con is selected and its value
is on display, nothing happens. Otherwise, if the store has a value of the con, that is shown at
once, and a revalidation is left to the background if no value out of the cache was shown before. In
all other cases the call ends as a reload of the con does. When it returns, the con is selected and
there is something to show for it; if it was not selected before, the retries begin anew. -/
theorem activation_by_itself (run : Run Allowed (.new policy store) past s) (con : String)
    (faults : List StoreOperation) (first second : Reply) :
    let e := Event.move (.activate con) faults
    ∃ p s', s.alone e first second = (p, s') ∧
      (p = .unchanged ↔ s.sync.selected = some con ∧ s.sync.status = .success) ∧
      (p = .unchanged → s.perform e = (.unchanged, s) ∧ s' = s) ∧
      (p ≠ .unchanged → ∀ value etag, Cache.Holds r s.store con value etag →
        ∃ revalidation, p = .cached revalidation ∧ s.perform e = (p, s') ∧ s'.store = s.store ∧
          s'.sync.published = .success value etag ∧ s'.sync.status = .success ∧
          (revalidation.isSome = true ↔ ∀ i ∈ past, i.servesCached = false) ∧
          ∀ k, revalidation = some k → s'.machine.job? k = some .queued) ∧
      (p ≠ .unchanged → (∀ value etag, ¬ Cache.Holds r s.store con value etag) →
        ∃ reload, p = .ended reload ∧ reload ≠ .superseded ∧ reload ≠ .noInstance ∧
          s.progress e = .sent s.machine.nextTicket
            (s.sync.request con { s.store with failing := faults }) ∧
          (s.selecting con faults).alone (.move .reload faults) first second = (p, s')) ∧
      s'.sync.selected = some con ∧ (s'.sync.status = .success ∨ s'.sync.status = .error) ∧
      (s.sync.selected ≠ some con → (s.next e).sync.retry = {} ∧
        (s'.sync.retry = {} ∨ p = .ended (.updated true) ∧
          ∃ now, s'.sync.retry = (Scheduler.onStale policy now {}).2)) := by
  intro e
  by_cases shows : s.sync.selected = some con ∧ s.sync.status = .success
  · have performed := perform_activate_of_showing (isShowing_eq_true_iff.2 shows) faults
    have alone := Scene.alone_of_unsent performed nofun first second
    exact ⟨_, _, alone, by simpa using shows, fun _ => ⟨performed, rfl⟩, fun h => absurd rfl h,
      fun h => absurd rfl h, shows.1, .inl shows.2, fun h => absurd shows.1 h⟩
  · have hidden : s.sync.isShowing con = false :=
      Bool.eq_false_iff.2 fun showing => shows (isShowing_eq_true_iff.1 showing)
    cases usable : Cache.usable? r s.store con with
    | some found =>
      obtain ⟨value, etag⟩ := found
      obtain ⟨revalidation, s', performed, store, sync, queues, queued⟩ :=
        perform_activate_of_usable hidden usable faults
      have alone := Scene.alone_of_unsent performed nofun first second
      have selected : s'.sync.selected = some con := by rw [sync, selected_found]
      have success : s'.sync.status = .success := by
        rw [sync]
        exact status_display (selected_select con s.sync) rfl rfl
      refine ⟨_, s', alone, by simpa using shows, nofun, fun _ value' etag' holds => ?_,
        fun _ absent => absurd (Cache.usable?_eq_some_iff.1 usable) (absent value etag), selected,
        .inl success, fun other => ?_⟩
      · have same := usable.symm.trans (Cache.usable?_eq_some_iff.2 holds)
        obtain ⟨rfl, rfl⟩ := Prod.mk.inj (Option.some.inj same)
        refine ⟨revalidation, rfl, performed, store, sync ▸ rfl, success, ?_, queued⟩
        rw [queues, run.revalidated, List.any_eq_false]
        simp only [Bool.not_eq_true]
      · have retry : s'.sync.retry = {} := by
          rw [sync]
          exact retry_select_of_ne other
        have next : s.next e = s' := congrArg Prod.snd performed
        exact ⟨next ▸ retry, .inl retry⟩
    | none =>
      obtain ⟨reload, s', alone, sent, reloads, sync, concluded⟩ :=
        alone_of_unusable hidden usable faults first second
      refine ⟨_, s', alone, by simpa using shows, nofun, fun _ value etag holds => ?_,
        fun _ _ => ⟨reload, rfl, concluded.counts, concluded.begun, sent, reloads⟩,
        concluded.selected, concluded.told, fun other => ?_⟩
      · exact nomatch usable.symm.trans (Cache.usable?_eq_some_iff.2 holds)
      · have retry : (s.sync.begun con).retry = {} := retry_begun_of_ne other
        refine ⟨(congrArg Sync.retry sync).trans retry,
          concluded.retry.imp_right fun ⟨stale, now, counted⟩ => ?_⟩
        refine ⟨congrArg Progress.ended stale, now, counted.trans ?_⟩
        rw [retry, run.counted.2]

/-- While another con waits for its retry, a con is activated whose record was damaged, and the
first answer confirms what cannot be used. The call ends with the second answer, and the retries of
the other con are forgotten. -/
theorem activation_of_damaged_record_by_itself :
    let record := "\x7b\"instance\":\"a\",\"etag\":\"v1\",\"value\":0\x7d"
    let start : Scene .pages := .new .standard
      { kind := .database, records := ({} : Records).insert (Cache.recordKey "pages") record }
    let s := start.afterAll
      [.move (.activate "b") [], .move (.answer 0 0 (.success (.array []) none true)) []]
    let first : Reply := ⟨1, .notModified, []⟩
    let second : Reply := ⟨2, .success (.array []) (some "v2") false, []⟩
    s.sync.retry.attempt = 1 ∧ (∃ past, Run (fun _ _ => True) start past s) ∧
      ∃ s', s.alone (.move (.activate "a") []) first second = (.ended (.updated false), s') ∧
        s'.sync.selected = some "a" ∧ s'.sync.status = .success ∧ s'.sync.retry = {} := by
  intro record start s first second
  obtain ⟨past, run⟩ : ∃ past, Run (fun _ _ => True) start past s :=
    Run.nil.afterAll _ ⟨trivial, trivial, trivial⟩
  obtain ⟨p, s', alone, -, -, -, -, selected, -, forgotten⟩ :=
    activation_by_itself run "a" [] first second
  have ended : (s.alone (.move (.activate "a") []) first second).1 = .ended (.updated false) := by
    decide
  have success : (s.alone (.move (.activate "a") []) first second).2.sync.status = .success := by
    decide
  rw [alone] at ended success
  subst ended
  obtain ⟨-, retry | ⟨stale, -⟩⟩ := forgotten (by decide)
  · exact ⟨by decide, ⟨past, run⟩, s', alone, selected, success, retry⟩
  · cases stale

end OfflineSchedule.Sync
