import OfflineSchedule.Proofs.Sync.Part
/-!
# Runs

A run is a history of incidents, any that the surroundings allow in any order, and the scene that
it has led to. An invariant of runs may speak about the history; `Run.invariant` asks of it only
that every part of a step preserves it. The first such invariant is about the requests that are
out: each has a number of its own, and the one with the highest number given out is a request for
the con that is selected (`Orderly`). Another is about tickets: the retry loop runs a reload that
waits for its answer (`Ticketed`).
-/

namespace OfflineSchedule.Sync

variable {r : Resource}

/-- The runs that begin at `start`, all events of which the surroundings allow: what has happened,
the latest incident first, and the scene that it has led to. -/
inductive Run (Allowed : Scene r → Event → Prop) (start : Scene r) :
    List (Incident r) → Scene r → Prop where
  | nil : Run Allowed start [] start
  | cons {past : List (Incident r)} {s : Scene r} {e : Event} (run : Run Allowed start past s)
      (allowed : Allowed s e) : Run Allowed start (⟨s, e⟩ :: past) (s.next e)

variable {Allowed : Scene r → Event → Prop} {start s : Scene r} {past : List (Incident r)}

/-- Surroundings that allow more allow the same runs. -/
theorem Run.mono {Allowed' : Scene r → Event → Prop}
    (weaker : ∀ s e, Allowed s e → Allowed' s e) (run : Run Allowed start past s) :
    Run Allowed' start past s := by
  induction run with
  | nil => exact .nil
  | cons _ allowed ih => exact ih.cons (weaker _ _ allowed)

/-- What holds at the start, is not lost when more happens, and is preserved by every part of an
incident holds after every run. -/
theorem Run.invariant (I : List (Incident r) → Scene r → Prop) (init : I [] start)
    (mono : ∀ past i s, I past s → I (i :: past) s)
    (part : ∀ past i s s', Allowed i.before i.event → I past i.before → I (i :: past) s →
      Part i s s' → I (i :: past) s')
    (run : Run Allowed start past s) : I past s := by
  induction run with
  | nil => exact init
  | @cons past s e run allowed ih =>
    exact parts_induction (I := fun s' => I (⟨s, e⟩ :: past) s') (mono past ⟨s, e⟩ s ih)
      fun a b p h => part past ⟨s, e⟩ a b allowed ih h p

/-- The scene after some events. -/
def Scene.afterAll : List Event → Scene r → Scene r
  | [], s => s
  | e :: es, s => (s.next e).afterAll es

/-- The surroundings allow these events, one after the other. -/
def Scene.AllowsAll (Allowed : Scene r → Event → Prop) : List Event → Scene r → Prop
  | [], _ => True
  | e :: es, s => Allowed s e ∧ (s.next e).AllowsAll Allowed es

theorem Scene.afterAll_append (es es' : List Event) (s : Scene r) :
    s.afterAll (es ++ es') = (s.afterAll es).afterAll es' := by
  induction es generalizing s with
  | nil => rfl
  | cons e es ih => exact ih (s.next e)

theorem Scene.AllowsAll.append {es es' : List Event} (h : s.AllowsAll Allowed es)
    (h' : (s.afterAll es).AllowsAll Allowed es') : s.AllowsAll Allowed (es ++ es') := by
  induction es generalizing s with
  | nil => exact h'
  | cons e es ih => exact ⟨h.1, ih h.2 h'⟩

/-- Events that are allowed, one after the other, make a run. -/
theorem Run.afterAll (es : List Event) (run : Run Allowed start past s)
    (allowed : s.AllowsAll Allowed es) : ∃ past, Run Allowed start past (s.afterAll es) := by
  induction es generalizing past s with
  | nil => exact ⟨past, run⟩
  | cons e es ih => exact ih (run.cons allowed.1) allowed.2

/-! ## Requests that are out -/

/-- What holds of the requests that are out. -/
structure Orderly (s : Scene r) : Prop where
  /-- Numbers are given out in order. -/
  number_le : ∀ k f, s.Waits k f → f.number ≤ s.sync.issued
  /-- No two reloads wait under one number. -/
  ticket_unique : ∀ k k' f g, s.Waits k f → s.Waits k' g → f.number = g.number → k = k'
  /-- The latest request is about the con that is selected. -/
  selected_of_latest : ∀ k f, s.Waits k f → f.number = s.sync.issued →
    s.sync.selected = some f.con

theorem isLatest_iff {f : Flight} {y : Sync r} : y.isLatest f = true ↔ f.number = y.issued := by
  simp [isLatest, eq_comm]

theorem isLatest_of_lt {f : Flight} {y : Sync r} (late : f.number < y.issued) :
    y.isLatest f = false := by
  simp only [isLatest, decide_eq_false_iff_not]
  omega

namespace Orderly

theorem of_new (policy : Retry.Policy) (store : Store) :
    Orderly (Scene.new policy store : Scene r) :=
  ⟨fun _ _ h => by simp [Scene.Waits, Scene.new, Machine.job?] at h,
    fun _ _ _ _ h => by simp [Scene.Waits, Scene.new, Machine.job?] at h,
    fun _ _ h => by simp [Scene.Waits, Scene.new, Machine.job?] at h⟩

/-- Numbers and con may stay, or a higher number may be given out to nobody. -/
theorem of_waits {s' : Scene r} (h : Orderly s) (waits : ∀ k f, s'.Waits k f → s.Waits k f)
    (later : s'.sync.issued = s.sync.issued ∧ s'.sync.selected = s.sync.selected ∨
      s.sync.issued < s'.sync.issued) : Orderly s' := by
  refine ⟨fun k f hw => ?_, fun k k' f g hf hg => h.ticket_unique k k' f g (waits k f hf)
    (waits k' g hg), fun k f hw hn => ?_⟩
  · have := h.number_le k f (waits k f hw)
    omega
  · have hle := h.number_le k f (waits k f hw)
    rcases later with ⟨hi, hs⟩ | hi
    · rw [hs]
      exact h.selected_of_latest k f (waits k f hw) (hn.trans hi)
    · omega

theorem of_begun {s' : Scene r} {con : String} {ticket : Nat} {store : Store} (h : Orderly s)
    (sync : s'.sync = s.sync.begun con)
    (waits : ∀ k f, s'.Waits k f →
      k = ticket ∧ f = s.sync.request con store ∨ k ≠ ticket ∧ s.Waits k f) : Orderly s' := by
  have hi : s'.sync.issued = s.sync.issued + 1 := by rw [sync]; rfl
  have hs : s'.sync.selected = some con := by rw [sync]; exact selected_select con s.sync
  have number : (s.sync.request con store).number = s.sync.issued + 1 := rfl
  refine ⟨fun k f hw => ?_, fun k k' f g hf hg hn => ?_, fun k f hw hn => ?_⟩
  · rcases waits k f hw with ⟨-, rfl⟩ | ⟨-, hw⟩
    · omega
    · have := h.number_le k f hw
      omega
  · rcases waits k f hf with ⟨rfl, rfl⟩ | ⟨-, hf⟩ <;> rcases waits k' g hg with ⟨rfl, rfl⟩ | ⟨-, hg⟩
    · rfl
    · have := h.number_le k' g hg
      omega
    · have := h.number_le k f hf
      omega
    · exact h.ticket_unique k k' f g hf hg hn
  · rcases waits k f hw with ⟨-, rfl⟩ | ⟨-, hw⟩
    · exact hs
    · have := h.number_le k f hw
      omega

/-- Without its condition a request stays the same. -/
theorem of_again {s' : Scene r} {ticket : Nat} {f : Flight} (h : Orderly s)
    (waited : s.Waits ticket f) (sync : s'.sync = s.sync)
    (waits : ∀ k g, s'.Waits k g →
      k = ticket ∧ g = { f with etag := none } ∨ k ≠ ticket ∧ s.Waits k g) : Orderly s' := by
  have old : ∀ k g, s'.Waits k g → ∃ g', s.Waits k g' ∧ g'.number = g.number ∧ g'.con = g.con := by
    intro k g hw
    rcases waits k g hw with ⟨rfl, rfl⟩ | ⟨-, hw⟩
    · exact ⟨f, waited, rfl, rfl⟩
    · exact ⟨g, hw, rfl, rfl⟩
  refine ⟨fun k g hw => ?_, fun k k' g g' hg hg' hn => ?_, fun k g hw hn => ?_⟩
  · obtain ⟨g', hw', hn, -⟩ := old k g hw
    rw [sync, ← hn]
    exact h.number_le k g' hw'
  · obtain ⟨a, ha, han, -⟩ := old k g hg
    obtain ⟨b, hb, hbn, -⟩ := old k' g' hg'
    exact h.ticket_unique k k' a b ha hb (by omega)
  · obtain ⟨g', hw', hn', hc⟩ := old k g hw
    rw [sync, ← hc]
    exact h.selected_of_latest k g' hw' (by rw [hn', hn, sync])

end Orderly

@[simp] theorem selected_fail (f : Flight) (code : Nat) (y : Sync r) :
    (y.fail f code).selected = y.selected := by
  unfold fail
  split <;> rfl

@[simp] theorem issued_fail (f : Flight) (code : Nat) (y : Sync r) :
    (y.fail f code).issued = y.issued := by
  unfold fail
  split <;> rfl

namespace Settled

variable {policy : Retry.Policy} {now : Retry.Moment} {f : Flight} {o : Http.Outcome Json.Value}
  {store store' : Store} {y y' : Sync r} {reload : Reload}

/-- An answer neither selects a con nor gives out a number. -/
theorem keeps (h : Settled policy now f o store y reload store' y') :
    y'.issued = y.issued ∧ y'.selected = y.selected := by
  cases h with
  | superseded => exact ⟨rfl, rfl⟩
  | @updated _ _ _ stale => cases stale <;> exact ⟨rfl, rfl⟩
  | notModified => exact ⟨rfl, rfl⟩
  | @failed code => exact ⟨issued_fail f code y, selected_fail f code y⟩

/-- The value of a payload may be kept; nothing else is done to the store. -/
theorem store_cases (h : Settled policy now f o store y reload store' y') :
    store' = store ∨ ∃ payload value etag, o = .success payload etag false ∧
      r.liveOfValue payload = .ok value ∧ store' = Cache.keep r store f.con value etag := by
  cases h with
  | @updated payload value etag stale answer decoded =>
    cases stale with
    | false => exact .inr ⟨payload, value, etag, answer, decoded, rfl⟩
    | true => exact .inl rfl
  | _ => exact .inl rfl

/-- A reload that ends as updated has been answered with a payload. -/
theorem of_updated {stale : Bool}
    (h : Settled policy now f o store y (.updated stale) store' y') :
    ∃ payload value etag, o = .success payload etag stale ∧ r.liveOfValue payload = .ok value ∧
      y.isLatest f = true ∧
      store' = (if stale then store else Cache.keep r store f.con value etag) ∧
      y' = y.receive policy now f value etag stale := by
  cases h with
  | updated answer decoded latest => exact ⟨_, _, _, answer, decoded, latest, rfl, rfl⟩

/-- Nothing but a fresh payload is kept. -/
theorem store_of_ne (h : Settled policy now f o store y reload store' y')
    (ne : reload ≠ .updated false) : store' = store := by
  cases h with
  | @updated _ _ _ stale =>
    cases stale with
    | false => exact absurd rfl ne
    | true => rfl
  | _ => rfl

/-- All an answer can do to a reload that is not the latest is to end it. -/
theorem eq_of_late (h : Settled policy now f o store y reload store' y')
    (late : y.isLatest f = false) : reload = .superseded ∧ store' = store ∧ y' = y := by
  cases h with
  | superseded => exact ⟨rfl, rfl, rfl⟩
  | updated _ _ latest => simp [latest] at late
  | notModified _ _ latest => simp [latest] at late
  | failed latest => simp [latest] at late

end Settled

/-- An answer gives out no number. -/
theorem issued_answer (s : Scene r) (ticket : Nat) (now : Retry.Moment)
    (o : Http.Outcome Json.Value) (faults : List StoreOperation) :
    (s.next (.move (.answer ticket now o) faults)).sync.issued = s.sync.issued := by
  rcases waits_or_idle s ticket with ⟨f, waited⟩ | idle
  · rcases next_answer waited now o faults with ⟨reload, -, settled⟩ | ⟨-, -, -, -, sync⟩
    · exact settled.keeps.1
    · rw [sync]
  · rw [Scene.next, perform_answer_idle idle]

theorem Act.issued_le {i : Incident r} {a b : Scene r} (h : Act i a b) :
    a.sync.issued ≤ b.sync.issued := by
  cases h with
  | found => exact Nat.le_succ _
  | begun => exact Nat.le_succ _
  | started => exact Nat.le_succ _
  | settled _ _ _ _ settled => exact Nat.le_of_eq settled.keeps.1.symm
  | _ => exact Nat.le_refl _

/-- Numbers that were given out are not taken back. -/
theorem issued_le_next (s : Scene r) (e : Event) : s.sync.issued ≤ (s.next e).sync.issued :=
  acts_induction (I := fun s' => s.sync.issued ≤ s'.sync.issued) (Nat.le_refl _)
    fun _ _ h le => Nat.le_trans le h.issued_le

theorem Orderly.part {i : Incident r} {s s' : Scene r} (h : Orderly s) (p : Part i s s') :
    Orderly s' := by
  cases p with
  | rest _ sync waits =>
    obtain ⟨retry, sync⟩ := sync
    exact h.of_waits waits (.inl (by rw [sync]; exact ⟨rfl, rfl⟩))
  | found _ _ _ _ sync waits =>
    refine h.of_waits waits (.inr ?_)
    rw [sync]
    exact Nat.lt_succ_self s.sync.issued
  | begun _ _ _ sync waits => exact h.of_begun sync waits
  | settled _ _ _ _ settled waits =>
    exact h.of_waits (fun k f hw => (waits k f hw).2) (.inl settled.keeps)
  | again _ _ waited _ _ _ _ sync waits => exact h.of_again waited sync waits
  | cleared _ machine =>
    refine h.of_waits (fun k f hw => ?_) (.inl ?_)
    · rwa [Scene.Waits, machine] at hw
    · rw [Scene.sync, machine]
      exact ⟨rfl, rfl⟩
  | interfered => exact h.of_waits (fun _ _ hw => hw) (.inl ⟨rfl, rfl⟩)

theorem Run.orderly {policy : Retry.Policy} {store : Store}
    (run : Run Allowed (.new policy store) past s) : Orderly s :=
  run.invariant (fun _ s => Orderly s) (.of_new policy store) (fun _ _ _ h => h)
    fun _ _ _ _ _ _ h p => h.part p

/-! ## Tickets -/

/-- Tickets that were not given out are of no reload, and the retry loop runs a reload that waits
for an answer. -/
structure Ticketed (m : Machine r) : Prop where
  unused : ∀ k, m.nextTicket ≤ k → m.job? k = none
  fetching : ∀ k, m.loop = some k → ∃ f, m.job? k = some (.fetching f)

namespace Ticketed

variable {m m' : Machine r}

/-- Nothing but the jobs, the next ticket and the loop counts. -/
theorem congr (h : Ticketed m) (jobs : m'.jobs = m.jobs) (next : m'.nextTicket = m.nextTicket)
    (loop : m'.loop = m.loop) : Ticketed m' := by
  have job : ∀ k, m'.job? k = m.job? k := fun k => by rw [Machine.job?, jobs, Machine.job?]
  refine ⟨fun k hk => ?_, fun k hk => ?_⟩
  · rw [job]
    exact h.unused k (next ▸ hk)
  · rw [job]
    exact h.fetching k (loop ▸ hk)

theorem lt_of_job? (h : Ticketed m) {k : Nat} {j : Job} (job : m.job? k = some j) :
    k < m.nextTicket := by
  refine Nat.lt_of_not_le fun hk => ?_
  rw [h.unused k hk] at job
  cases job

theorem addJob (h : Ticketed m) (j : Job) : Ticketed (m.addJob j).2 := by
  have job : ∀ k, (m.addJob j).2.job? k = if k = m.nextTicket then some j else m.job? k :=
    fun k => Machine.job?_setJob m.nextTicket k j m
  refine ⟨fun k hk => ?_, fun k hk => ?_⟩
  · have hk : m.nextTicket < k := hk
    rw [job, if_neg (Nat.ne_of_gt hk), h.unused k (Nat.le_of_lt hk)]
  · obtain ⟨f, waits⟩ := h.fetching k hk
    rw [job, if_neg (Nat.ne_of_lt (h.lt_of_job? waits))]
    exact ⟨f, waits⟩

theorem endJob (h : Ticketed m) (ticket : Nat) : Ticketed (m.endJob ticket) := by
  refine ⟨fun k hk => ?_, fun k hk => ?_⟩
  · rw [Machine.job?_endJob, h.unused k hk, ite_self]
  · obtain ⟨hl, hk⟩ := Option.filter_eq_some_iff.1 hk
    rw [Machine.job?_endJob, if_neg (by simpa using hk)]
    exact h.fetching k hl

/-- A reload that is known makes a request. -/
theorem setJob (h : Ticketed m) {ticket : Nat} {j : Job} (known : m.job? ticket = some j)
    (f : Flight) : Ticketed (m.setJob ticket (.fetching f)) := by
  refine ⟨fun k hk => ?_, fun k hk => ?_⟩
  · rw [Machine.job?_setJob, h.unused k hk, if_neg]
    exact Nat.ne_of_gt (Nat.lt_of_lt_of_le (h.lt_of_job? known) hk)
  · rw [Machine.job?_setJob]
    split
    · exact ⟨f, rfl⟩
    · exact h.fetching k hk

end Ticketed

theorem Act.ticketed {i : Incident r} {s s' : Scene r} (act : Act i s s')
    (h : Ticketed s.machine) : Ticketed s'.machine := by
  cases act with
  | queued => exact h.addJob .queued
  | @begun con =>
    exact Ticketed.addJob (m := { s.machine with sync := s.sync.begun con })
      (h.congr rfl rfl rfl) (.fetching _)
  | @started con _ queued =>
    exact Ticketed.setJob (m := { s.machine with sync := s.sync.begun con })
      (h.congr rfl rfl rfl) queued _
  | abandoned => exact h.endJob _
  | @settled _ _ _ _ _ _ _ sync =>
    exact Ticketed.endJob (m := { s.machine with sync }) (h.congr rfl rfl rfl) _
  | again _ _ waited => exact h.setJob waited _
  | @looped _ _ f _ waits =>
    refine ⟨h.unused, fun k hk => ?_⟩
    cases hk
    exact ⟨f, waits⟩
  | cleared => exact h
  | interfered => exact h
  | _ => exact h.congr rfl rfl rfl

theorem Ticketed.next (h : Ticketed s.machine) (e : Event) : Ticketed (s.next e).machine :=
  acts_induction (I := fun s' => Ticketed s'.machine) h fun _ _ act => act.ticketed

theorem Ticketed.afterAll (h : Ticketed s.machine) (es : List Event) :
    Ticketed (s.afterAll es).machine := by
  induction es generalizing s with
  | nil => exact h
  | cons e es ih => exact ih (h.next e)

theorem Run.ticketed {policy : Retry.Policy} {store : Store}
    (run : Run Allowed (.new policy store) past s) : Ticketed s.machine := by
  induction run with
  | nil => exact ⟨fun _ _ => rfl, nofun⟩
  | @cons _ _ e _ _ ih => exact ih.next e

/-! ## What is selected -/

/-- The con that a move activates. -/
def Move.activated? : Move → Option String
  | .activate con | .refresh con => some con
  | _ => none

/-- The con that an event activates. -/
def Event.activated? : Event → Option String
  | .move m _ => m.activated?
  | .interference _ => none

theorem isShowing_iff {con : String} {y : Sync r} :
    y.isShowing con = true ↔
      y.selected = some con ∧ y.owner = some con ∧ y.published.isSuccess = true := by
  simp [isShowing, and_assoc]

theorem selected_reload (m : Machine r) (store : Store) :
    (m.reload store).2.sync.selected = m.sync.selected := by
  unfold Machine.reload
  cases h : m.sync.selected with
  | none =>
    rw [issue_of_unselected h]
    exact h
  | some con =>
    rw [issue_of_selected h]
    exact selected_select con m.sync

theorem selected_activate (m : Machine r) (con : String) (store : Store)
    (faults : List StoreOperation) :
    (m.activate con store faults).2.sync.selected = some con := by
  unfold Machine.activate
  rcases activate_cases con store m.sync with ⟨hs, ha⟩ | ⟨-, -, ha⟩ | ⟨value, etag, -, -, ha⟩
  · rw [ha]
    exact (isShowing_iff.1 hs).1
  · rw [ha]
    exact (selected_reload _ _).trans (selected_select con m.sync)
  · rw [ha]
    cases m.sync.revalidated <;> exact selected_select con m.sync

theorem selected_refresh (m : Machine r) (con : String) (store : Store)
    (faults : List StoreOperation) :
    (m.refresh con store faults).2.sync.selected = some con := by
  have ha := selected_activate m con store faults
  unfold Machine.refresh
  split <;> rename_i h
  · rwa [h] at ha
  · rw [h] at ha
    exact (selected_reload _ _).trans ha
  · rw [h] at ha
    exact (selected_reload _ _).trans ha
  · exact ha

/-- An event selects the con that it activates, and no other event selects one. -/
theorem selected_next (s : Scene r) (e : Event) :
    (s.next e).sync.selected = e.activated?.or s.sync.selected := by
  cases e with
  | interference store => rfl
  | move e faults =>
    cases e with
    | activate con => exact selected_activate s.machine con s.store faults
    | refresh con => exact selected_refresh s.machine con s.store faults
    | reload => exact selected_reload s.machine s.store
    | clear => rfl
    | shutdown => rfl
    | start ticket =>
      show (s.machine.start ticket s.store).2.sync.selected = s.sync.selected
      unfold Machine.start
      split
      · cases h : s.sync.selected with
        | none =>
          rw [issue_of_unselected h]
          exact h
        | some con =>
          rw [issue_of_selected h]
          exact selected_select con s.sync
      · rfl
    | answer ticket now o =>
      show (s.machine.answer ticket now o s.store).2.2.sync.selected = s.sync.selected
      unfold Machine.answer
      split
      · rename_i f _
        rcases answer_cases s.machine.policy now f o s.store s.machine.sync with
          ⟨reload, store, y, ha, settled⟩ | ⟨ha, -⟩
        · rw [ha]
          exact settled.keeps.2
        · rw [ha]
          rfl
      · rfl
    | abandon ticket => rfl
    | fire =>
      show s.machine.fire.sync.selected = s.sync.selected
      unfold Machine.fire
      split <;> rfl
    | retry =>
      show (s.machine.retry s.store).2.sync.selected = s.sync.selected
      unfold Machine.retry
      split
      · rfl
      · have hr := selected_reload { s.machine with triggers := s.machine.triggers - 1 } s.store
        split <;> rename_i h
        · rw [h] at hr
          exact hr
        · exact hr

end OfflineSchedule.Sync
