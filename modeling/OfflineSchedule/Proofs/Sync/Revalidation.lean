import OfflineSchedule.Proofs.Sync.Activation
import OfflineSchedule.Proofs.Sync.Requests
/-!
# Whom the background revalidation is for

An activation that shows a cached value leaves a reload to the background, once in a run. That
reload looks for the selected con when it begins, and not when it is left. So it is for the con that
was activated last by then, and as it takes a number of its own, it supersedes whatever is out.
-/

namespace OfflineSchedule.Sync

open Retry (Policy)

variable {r : Resource} {Allowed : Scene r → Event → Prop} {start s : Scene r}
  {past later : List (Incident r)} {i j : Incident r} {policy : Policy} {store : Store}
  {con : String} {k : Nat} {f : Flight}

/-! ## The con that was activated last -/

/-- The con that was activated last, the latest incident being the first of the list. -/
def lastActivated? (past : List (Incident r)) : Option String :=
  past.findSome? (·.event.activated?)

theorem Run.selected (run : Run Allowed (.new policy store) past s) :
    s.sync.selected = lastActivated? past := by
  induction run with
  | nil => rfl
  | @cons past s e _ _ ih =>
    rw [selected_next, ih, lastActivated?, lastActivated?, List.findSome?_cons]
    cases e.activated? <;> rfl

theorem lastActivated?_append (activated : i.event.activated? = some con) :
    lastActivated? (later ++ i :: past) = some ((lastActivated? later).getD con) := by
  unfold lastActivated?
  rw [List.findSome?_append, List.findSome?_cons, activated]
  cases later.findSome? (·.event.activated?) <;> rfl

/-- The run up to an incident. -/
theorem Run.upTo (run : Run Allowed start (later ++ i :: past) s) :
    Run Allowed start (i :: past) i.after := by
  induction later generalizing s with
  | nil =>
    cases run with
    | cons run allowed => exact run.cons allowed
  | cons _ _ ih =>
    cases run with
    | cons run => exact ih run

theorem Run.before (run : Run Allowed start (later ++ i :: past) s) :
    Run Allowed start past i.before := by
  cases run.upTo with
  | cons run => exact run

/-! ## What is left to the background -/

/-- The incident leaves the reload of the ticket to the background. -/
def Incident.Leaves (ticket : Nat) (i : Incident r) : Prop :=
  i.progress = .cached (some ticket) ∨ i.progress = .joined ticket

/-- What a call has found when it leaves a reload to the background, and what it leaves. -/
structure LeavesBy (con : String) (store : Store) (k : Nat) (m m' : Machine r) : Prop where
  first : m.sync.revalidated = false
  found : m.sync.finds con store = true
  queued : m'.job? k = some .queued

theorem reload_leaves_nothing (m : Machine r) (store : Store) (k : Nat) :
    (m.reload store).1 ≠ .cached (some k) ∧ (m.reload store).1 ≠ .joined k := by
  unfold Machine.reload
  split <;> simp

theorem activate_leaves (m : Machine r) (con : String) (store : Store)
    (faults : List StoreOperation) (k : Nat) :
    (m.activate con store faults).1 ≠ .joined k ∧
      ((m.activate con store faults).1 = .cached (some k) →
        LeavesBy con store k m (m.activate con store faults).2) := by
  unfold Machine.activate
  rcases activate_cases con store m.sync with
    ⟨-, activated⟩ | ⟨-, -, activated⟩ | ⟨_, _, hidden, usable, activated⟩
  · rw [activated]
    exact ⟨nofun, nofun⟩
  · rw [activated]
    obtain ⟨uncached, unjoined⟩ := reload_leaves_nothing { m with sync := m.sync.select con }
      { store with failing := faults } k
    exact ⟨unjoined, fun cached => absurd cached uncached⟩
  · rw [activated]
    cases first : m.sync.revalidated with
    | true => exact ⟨nofun, nofun⟩
    | false =>
      refine ⟨nofun, ?_⟩
      rintro ⟨⟩
      exact ⟨first, by simp [finds, hidden, usable],
        (Machine.job?_setJob _ _ _ _).trans (if_pos rfl)⟩

theorem refresh_leaves (m : Machine r) (con : String) (store : Store)
    (faults : List StoreOperation) (k : Nat) :
    (m.refresh con store faults).1 ≠ .cached (some k) ∧
      ((m.refresh con store faults).1 = .joined k →
        LeavesBy con store k m (m.refresh con store faults).2) := by
  obtain ⟨unjoined, leaves⟩ := activate_leaves m con store faults k
  unfold Machine.refresh
  split <;> rename_i activated
  · rw [activated] at leaves
    exact ⟨nofun, fun joined => leaves (by cases joined; rfl)⟩
  · exact ⟨(reload_leaves_nothing _ _ k).1,
      fun joined => absurd joined (reload_leaves_nothing _ _ k).2⟩
  · exact ⟨(reload_leaves_nothing _ _ k).1,
      fun joined => absurd joined (reload_leaves_nothing _ _ k).2⟩
  · rename_i other _
    exact ⟨fun cached => other _ _ (Prod.ext cached rfl), fun joined => absurd joined unjoined⟩

theorem unactivated_leaves_nothing {e : Event} (unactivated : e.activated? = none) (s : Scene r)
    (k : Nat) : s.progress e ≠ .cached (some k) ∧ s.progress e ≠ .joined k := by
  have done {p : Progress} (h : p = .done) : p ≠ .cached (some k) ∧ p ≠ .joined k := by simp [h]
  cases e with
  | interference store => exact done rfl
  | move e faults =>
    cases e with
    | activate con => cases unactivated
    | refresh con => cases unactivated
    | reload => exact reload_leaves_nothing s.machine s.store k
    | start ticket =>
      show (s.machine.start ticket s.store).1 ≠ _ ∧ (s.machine.start ticket s.store).1 ≠ _
      unfold Machine.start
      split
      · split <;> simp
      · exact done rfl
    | answer ticket now o =>
      rcases waits_or_idle s ticket with ⟨f, waited⟩ | idle
      · rcases next_answer waited now o faults with ⟨reload, ended, -⟩ | ⟨sent, -⟩
        · simp [ended]
        · simp [sent]
      · exact done (congrArg Prod.fst (perform_answer_idle idle now o faults))
    | retry =>
      show (s.machine.retry s.store).1 ≠ _ ∧ (s.machine.retry s.store).1 ≠ _
      unfold Machine.retry
      split
      · exact done rfl
      · split
        · simp
        · exact reload_leaves_nothing _ _ k
    | clear => exact done rfl
    | shutdown => exact done rfl
    | abandon ticket => exact done rfl
    | fire => exact done rfl

/-- A reload is left by the activation of a con whose cached value is shown, if it is the first one
in the run. -/
theorem Incident.Leaves.cases (h : i.Leaves k) :
    ∃ con, i.event.activated? = some con ∧ i.servesCached = true ∧
      i.before.sync.revalidated = false ∧ i.after.machine.job? k = some .queued := by
  obtain ⟨s, e⟩ := i
  have leaves : ∀ con, e.activated? = some con →
      LeavesBy con s.store k s.machine (s.next e).machine →
      ∃ con, e.activated? = some con ∧ (⟨s, e⟩ : Incident r).servesCached = true ∧
        s.sync.revalidated = false ∧ (s.next e).machine.job? k = some .queued :=
    fun con activated left =>
      ⟨con, activated, by simpa [servesCached, activated] using left.found, left.first, left.queued⟩
  have nothing : e.activated? ≠ none := fun unactivated =>
    not_or.2 (unactivated_leaves_nothing unactivated s k) h
  cases e with
  | interference store => exact absurd rfl nothing
  | move m faults =>
    cases m with
    | activate con =>
      obtain ⟨unjoined, left⟩ := activate_leaves s.machine con s.store faults k
      exact leaves con rfl (left (h.resolve_right unjoined))
    | refresh con =>
      obtain ⟨uncached, left⟩ := refresh_leaves s.machine con s.store faults k
      exact leaves con rfl (left (h.resolve_left uncached))
    | _ => exact absurd rfl nothing

theorem Run.revalidated_of_left (run : Run Allowed (.new policy store) past s) (mem : i ∈ past)
    (left : i.Leaves k) : s.sync.revalidated = true := by
  obtain ⟨_, -, serves, -⟩ := left.cases
  rw [run.revalidated]
  exact List.any_eq_true.2 ⟨i, mem, serves⟩

/-- There is one such activation at most. -/
theorem Run.left_once (run : Run Allowed (.new policy store) (later ++ i :: past) s)
    (left : i.Leaves k) : ∀ j ∈ later ++ past, ∀ k', ¬ j.Leaves k' := by
  intro j mem k' left'
  rcases List.mem_append.1 mem with mem | mem
  · obtain ⟨after, before, rfl⟩ := List.append_of_mem mem
    obtain ⟨_, -, -, first, -⟩ := left'.cases
    have run : Run Allowed (.new policy store) (after ++ j :: (before ++ i :: past)) s := by
      simpa using run
    simp [run.before.revalidated_of_left (by simp) left] at first
  · obtain ⟨_, -, -, first, -⟩ := left.cases
    simp [run.before.revalidated_of_left mem left'] at first

/-! ## The request of the reload -/

theorem Act.nextTicket_le {a b : Scene r} (act : Act i a b) :
    a.machine.nextTicket ≤ b.machine.nextTicket := by
  cases act with
  | queued => exact Nat.le_succ _
  | begun => exact Nat.le_succ _
  | _ => exact Nat.le_refl _

theorem nextTicket_le_next (s : Scene r) (e : Event) :
    s.machine.nextTicket ≤ (s.next e).machine.nextTicket :=
  acts_induction (I := fun s' => s.machine.nextTicket ≤ s'.machine.nextTicket) (Nat.le_refl _)
    fun _ _ act le => Nat.le_trans le act.nextTicket_le

/-- The ticket of a reload that was left has been given out. -/
theorem Run.given (run : Run Allowed (.new policy store) (later ++ i :: past) s)
    (left : i.Leaves k) : k < s.machine.nextTicket := by
  induction later generalizing s with
  | nil =>
    obtain ⟨_, -, -, -, queued⟩ := left.cases
    have ticketed := run.ticketed
    cases run with
    | cons => exact ticketed.lt_of_job? queued
  | cons _ _ ih =>
    cases run with
    | @cons _ s e run => exact Nat.lt_of_lt_of_le (ih run) (nextTicket_le_next s e)

/-- The reload of a ticket that was given out before makes a request when it begins in the
background, for the con that is selected, or makes the same request again. -/
theorem sent_of_given {e : Event} (sent : s.progress e = .sent k f)
    (given : k < s.machine.nextTicket) :
    (∃ faults, e = .move (.start k) faults) ∧ s.sync.selected = some f.con ∧
        f.number = s.sync.issued + 1 ∨
      ∃ now o faults g, e = .move (.answer k now o) faults ∧ s.Waits k g ∧
        f = { g with etag := none } := by
  cases e with
  | interference store => cases sent
  | move e faults =>
    cases e with
    | activate con => exact absurd (activate_sent_ticket sent) (Nat.ne_of_gt given)
    | refresh con => exact absurd (refresh_sent_ticket sent) (Nat.ne_of_gt given)
    | reload => exact absurd (reload_sent_ticket sent) (Nat.ne_of_gt given)
    | retry => exact absurd (retry_sent_ticket sent) (Nat.ne_of_gt given)
    | start ticket =>
      left
      have sent : (s.machine.start ticket s.store).1 = .sent k f := sent
      unfold Machine.start at sent
      split at sent
      · cases selected : s.sync.selected with
        | none =>
          rw [issue_of_unselected selected] at sent
          cases sent
        | some con =>
          rw [issue_of_selected selected] at sent
          cases sent
          exact ⟨⟨faults, rfl⟩, rfl, rfl⟩
      · cases sent
    | answer ticket now o =>
      right
      rcases waits_or_idle s ticket with ⟨g, waited⟩ | idle
      · rcases next_answer waited now o faults with ⟨reload, ended, -⟩ | ⟨again, -⟩
        · exact nomatch ended.symm.trans sent
        · obtain ⟨rfl, rfl⟩ := Progress.sent.inj (again.symm.trans sent)
          exact ⟨now, o, faults, g, rfl, waited, rfl⟩
      · rw [Scene.progress, perform_answer_idle idle] at sent
        cases sent
    | clear => cases sent
    | shutdown => cases sent
    | abandon ticket => cases sent
    | fire => cases sent

/-- The reload of the ticket begins in the background. -/
def Incident.Begins (ticket : Nat) (i : Incident r) : Prop :=
  ∃ faults f, i.event = .move (.start ticket) faults ∧ i.progress = .sent ticket f

/-- Whatever it asks for, it has asked for the con that was selected when it began. -/
theorem Run.begun_of_request (run : Run Allowed (.new policy store) (later ++ i :: past) s)
    (left : i.Leaves k) (mem : f ∈ requestsOf k (later ++ i :: past)) :
    ∃ after b before, later = after ++ b :: before ∧ b.Begins k ∧
      b.before.sync.selected = some f.con := by
  induction later generalizing s f with
  | nil =>
    obtain ⟨_, -, -, -, queued⟩ := left.cases
    have asking := run.asking k
    cases run with
    | cons =>
      have nothing : requestsOf k _ = [] := asking.unbegun (.inr queued)
      rw [nothing] at mem
      cases mem
  | cons j later ih =>
    cases run with
    | @cons _ s e run =>
      have run : Run Allowed (.new policy store) (later ++ i :: past) s := run
      have earlier : ∀ g ∈ requestsOf k (later ++ i :: past), ∃ after b before,
          ⟨s, e⟩ :: later = after ++ b :: before ∧ b.Begins k ∧
            b.before.sync.selected = some g.con := by
        intro g mem
        obtain ⟨after, b, before, rfl, begins, selected⟩ := ih run mem
        exact ⟨_ :: after, b, before, rfl, begins, selected⟩
      rcases List.mem_append.1 mem with mem | mem
      · exact earlier f mem
      · have sent : s.progress e = .sent k f :=
          Incident.request?_eq_some (Option.mem_toList.1 mem)
        rcases sent_of_given sent (run.given left) with
          ⟨⟨faults, begins⟩, selected, -⟩ | ⟨_, _, _, g, -, waits, rfl⟩
        · exact ⟨[], _, later, rfl, ⟨faults, f, begins, sent⟩, selected⟩
        · refine earlier g ?_
          rcases (run.asking k).waits g waits with made | ⟨-, first, made⟩
          · rw [made]
            exact List.mem_singleton_self g
          · rw [made]
            exact List.mem_cons_of_mem first (List.mem_singleton_self g)

theorem mem_requestsOf (mem : j ∈ past) (sent : j.progress = .sent k f) :
    f ∈ requestsOf k past := by
  induction past with
  | nil => cases mem
  | cons i past ih =>
    refine List.mem_append.2 ?_
    rcases List.mem_cons.1 mem with rfl | mem
    · exact .inr (Option.mem_toList.2 (Incident.request?_of_sent sent))
    · exact .inl (ih mem)

/-- Where it begins, it asks for something, and supersedes what is out. -/
theorem Run.request_of_begun {before : List (Incident r)}
    (run : Run Allowed (.new policy store) (later ++ j :: (before ++ i :: past)) s)
    (left : i.Leaves k) (begins : j.Begins k) :
    ∃ f, j.progress = .sent k f ∧
      ∀ k' g, j.before.Waits k' g → j.after.sync.isLatest g = false := by
  obtain ⟨faults, f, begun, sent⟩ := begins
  refine ⟨f, sent, fun k' g out => isLatest_of_lt ?_⟩
  rcases sent_of_given sent (run.before.given left) with
    ⟨-, -, number⟩ | ⟨_, _, _, _, answered, -⟩
  · have earlier := run.before.orderly.number_le k' g out
    have latest := run.upTo.orderly.number_le k f (waits_of_sent sent)
    omega
  · exact nomatch begun.symm.trans answered

theorem Run.unbegun (run : Run Allowed start (later ++ i :: past) s)
    (h : s.machine.Unbegun k) : i.after.machine.Unbegun k := by
  induction later generalizing s with
  | nil =>
    cases run with
    | cons => exact h
  | cons _ _ ih =>
    cases run with
    | cons run => exact ih run (unbegun_of_next h)

/-- A reload that has begun does not begin again. -/
theorem Run.begins_once (run : Run Allowed (.new policy store) (later ++ i :: past) s)
    (begins : i.Begins k) : ∀ j ∈ later, ¬ j.Begins k := by
  rintro j mem ⟨_, g, event, sent⟩
  obtain ⟨after, between, rfl⟩ := List.append_of_mem mem
  have whole : Run Allowed (.new policy store) (after ++ j :: (between ++ i :: past)) s := by
    simpa using run
  have queued : j.before.machine.job? k = some .queued := by
    rw [Incident.progress, event] at sent
    exact start_sent_queued sent
  obtain ⟨_, f, _, sent⟩ := begins
  exact whole.before.upTo.ticketed.begun (waits_of_sent sent)
    (whole.before.unbegun (.inr queued))

/-- **Revalidations.** In every run one reload is left to the background at most, by the first
activation that shows a cached value. It asks for nothing until it begins, which it does once at
most. All that it asks for then is the con that was activated last by that time: the con whose value
was shown, unless another one was activated meanwhile. And its request supersedes whatever is out by
then. -/
theorem revalidation_asks_for_last_activated
    (run : Run Allowed (.new policy store) (later ++ i :: past) s) (left : i.Leaves k) :
    let asked := requestsOf k (later ++ i :: past)
    ∃ con, i.event.activated? = some con ∧ i.servesCached = true ∧
      (∀ j ∈ later ++ past, ∀ k', ¬ j.Leaves k') ∧
      ((∀ b ∈ later, ¬ b.Begins k) ∧ asked = [] ∨
        ∃ after b before, later = after ++ b :: before ∧ b.Begins k ∧
          (∀ c ∈ after ++ before, ¬ c.Begins k) ∧
          asked ≠ [] ∧ (∀ f ∈ asked, f.con = (lastActivated? before).getD con) ∧
          ∀ k' g, b.before.Waits k' g → b.after.sync.isLatest g = false) := by
  intro asked
  obtain ⟨con, activated, serves, -⟩ := left.cases
  refine ⟨con, activated, serves, run.left_once left, ?_⟩
  by_cases begun : ∃ b ∈ later, b.Begins k
  · right
    obtain ⟨b, mem, begins⟩ := begun
    obtain ⟨after, before, rfl⟩ := List.append_of_mem mem
    have whole : Run Allowed (.new policy store) (after ++ b :: (before ++ i :: past)) s := by
      simpa using run
    have once : ∀ c ∈ after ++ before, ¬ c.Begins k := by
      intro c mem
      rcases List.mem_append.1 mem with mem | mem
      · exact whole.begins_once begins c mem
      · obtain ⟨between, earlier, rfl⟩ := List.append_of_mem mem
        have run : Run Allowed (.new policy store)
            ((after ++ b :: between) ++ c :: (earlier ++ i :: past)) s := by
          simpa using whole
        exact fun begins' => run.begins_once begins' b (by simp) begins
    have selected : b.before.sync.selected = some ((lastActivated? before).getD con) := by
      rw [whole.before.selected, lastActivated?_append activated]
    obtain ⟨f, sent, supersedes⟩ := whole.request_of_begun left begins
    have asks : f ∈ asked := mem_requestsOf (by simp) sent
    refine ⟨after, b, before, rfl, begins, once, List.ne_nil_of_mem asks, fun g mem => ?_,
      supersedes⟩
    obtain ⟨after', b', before', split, begins', selected'⟩ := run.begun_of_request left mem
    obtain rfl : b' = b := by
      have mem : b' ∈ after ++ b :: before := by simp [split]
      rcases List.mem_append.1 mem with mem | mem
      · exact absurd begins' (once b' (List.mem_append_left _ mem))
      · rcases List.mem_cons.1 mem with same | mem
        · exact same
        · exact absurd begins' (once b' (List.mem_append_right _ mem))
    exact Option.some.inj (selected'.symm.trans selected)
  · refine .inl ⟨fun b mem begins => begun ⟨b, mem, begins⟩, ?_⟩
    refine List.eq_nil_iff_forall_not_mem.2 fun f mem => begun ?_
    obtain ⟨after, b, before, rfl, begins, -⟩ := run.begun_of_request left mem
    exact ⟨b, by simp, begins⟩

/-- The revalidation of a con begins before another one is activated, and is for it. -/
theorem revalidation_begins_in_time :
    let start : Scene .pages := .new .standard
      { kind := .database, records := ({} : Records).insert (Cache.recordKey "pages")
          (Cache.recordText .pages "a" [] (some "v1")) }
    let shows : Incident .pages := ⟨start, .move (.activate "a") []⟩
    let begins : Incident .pages := ⟨shows.after, .move (.start 0) []⟩
    let switches : Incident .pages := ⟨begins.after, .move (.activate "b") []⟩
    let history := [switches, begins, shows]
    Run (fun _ _ => True) start history switches.after ∧ shows.Leaves 0 ∧
      requestsOf 0 history = [⟨"a", 2, some "v1"⟩] ∧
      ∀ f ∈ requestsOf 0 history, f.con = "a" := by
  intro start shows begins switches history
  have run : Run (fun _ _ => True) start ([switches, begins] ++ shows :: []) switches.after :=
    ((Run.nil.cons trivial).cons trivial).cons trivial
  have left : shows.Leaves 0 := .inl (by decide)
  have begun : begins.Begins 0 := ⟨[], ⟨"a", 2, some "v1"⟩, rfl, by decide⟩
  refine ⟨run, left, by decide, ?_⟩
  obtain ⟨con, activated, -, -, unbegun | ⟨after, b, before, split, begins', once, -, own, -⟩⟩ :=
    revalidation_asks_for_last_activated run left
  · exact absurd begun (unbegun.1 begins (by simp))
  · cases activated
    have asked : (lastActivated? before).getD "a" = "a" := by
      rcases after with _ | ⟨_, after⟩
      · obtain ⟨rfl, rfl⟩ := List.cons.inj split
        exact absurd begun (once begins (by simp))
      · obtain ⟨-, split⟩ := List.cons.inj split
        rcases after with _ | ⟨_, after⟩
        · obtain ⟨-, rfl⟩ := List.cons.inj split
          rfl
        · simp at split
    exact fun f mem => (own f mem).trans asked

/-- The revalidation of a con begins after another one was activated. It asks for that one, and
supersedes the request that the activation has made for it. -/
theorem revalidation_asks_for_other_con :
    let start : Scene .pages := .new .standard
      { kind := .database, records := ({} : Records).insert (Cache.recordKey "pages")
          (Cache.recordText .pages "a" [] (some "v1")) }
    let shows : Incident .pages := ⟨start, .move (.activate "a") []⟩
    let switches : Incident .pages := ⟨shows.after, .move (.activate "b") []⟩
    let begins : Incident .pages := ⟨switches.after, .move (.start 0) []⟩
    let history := [begins, switches, shows]
    Run (fun _ _ => True) start history begins.after ∧ shows.Leaves 0 ∧
      requestsOf 0 history = [⟨"b", 3, none⟩] ∧
      begins.before.Waits 1 ⟨"b", 2, none⟩ ∧
      begins.after.sync.isLatest ⟨"b", 2, none⟩ = false := by
  intro start shows switches begins history
  exact ⟨((Run.nil.cons trivial).cons trivial).cons trivial, .inl (by decide), by decide,
    by decide, by decide⟩

end OfflineSchedule.Sync
