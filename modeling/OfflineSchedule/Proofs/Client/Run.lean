import OfflineSchedule.Client.Basic
import OfflineSchedule.Proofs.Convention.Run
import OfflineSchedule.Proofs.Sync.Allowance
/-!
# Clients at work

Whatever a client is asked for, its con goes through a run (`Reaches.display`, `Reaches.reload`): a
client differs from its con in that somebody answers it. A client that is done before any time
passes has no retry that is due at any stage of the run, unless retries have no delay
(`Reaches.calmly`).
-/

namespace OfflineSchedule

open Convention (Stage)
open Retry (Moment Policy)
open Sync (Act Incident Machine Move Progress Scene)

variable {r : Resource}

/-! ## Retries without time -/

namespace Retry

theorem Policy.nanos_delayFor_pos {p : Policy} (later : 0 < p.baseDelay.nanos) (attempt : Nat) :
    0 < (p.delayFor attempt).nanos := by
  rw [p.nanos_delayFor]
  have factor : 0 < Nat.pow 2 (min (attempt - 1) Policy.maxDoublings) := Nat.pow_pos (by decide)
  exact Nat.lt_min.2 ⟨Nat.mul_pos later factor, by decide⟩

/-- A timer that starts is not due at once. -/
theorem Scheduler.isDue_onStale {p : Policy} (later : 0 < p.baseDelay.nanos) (now : Moment)
    (q : Scheduler) : (q.onStale p now).2.isDue 0 = false := by
  rcases Nat.lt_or_ge q.attempt p.maxAttempts with next | spent
  · have delay := Policy.nanos_delayFor_pos later (q.attempt + 1)
    rw [onStale_next next]
    exact decide_eq_false (Nat.not_le.2 (Nat.lt_of_lt_of_le delay (Nat.le_add_left ..)))
  · rw [onStale_spent spent]
    rfl

end Retry

namespace Sync

/-- No retry is due before time passes. -/
def Machine.IsPatient (m : Machine r) : Prop := m.sync.retry.isDue 0 = false

theorem Act.isPatient {i : Incident r} {s s' : Scene r} (h : Act i s s')
    (later : 0 < s.machine.policy.baseDelay.nanos) (patient : s.machine.IsPatient) :
    s'.machine.IsPatient := by
  cases h with
  | @found con =>
    show (s.sync.select con).retry.isDue 0 = false
    unfold Sync.select
    split
    · exact patient
    · rfl
  | @settled _ _ _ _ _ _ _ sync _ _ _ _ settled =>
    show sync.retry.isDue 0 = false
    rcases settled.retry_cases with ⟨-, rfl⟩ | ⟨-, stale⟩ | ⟨-, reset⟩
    · exact patient
    · rw [stale]
      exact Retry.Scheduler.isDue_onStale later _ _
    · rw [reset]
      rfl
  | begun => rfl
  | started => rfl
  | stopped => rfl
  | fired => rfl
  | _ => exact patient

theorem Machine.IsPatient.next {s : Scene r} (patient : s.machine.IsPatient)
    (later : 0 < s.machine.policy.baseDelay.nanos) (e : Event) :
    (s.next e).machine.IsPatient := by
  have both : (s.next e).machine.policy = s.machine.policy ∧ (s.next e).machine.IsPatient :=
    acts_induction
      (I := fun s' => s'.machine.policy = s.machine.policy ∧ s'.machine.IsPatient)
      ⟨rfl, patient⟩ fun _ _ act h => ⟨act.policy.trans h.1, act.isPatient (h.1 ▸ later) h.2⟩
  exact both.2

end Sync

namespace Convention

variable {Allowed : Stage → Resource → Move → Prop} {policy : Policy} {hasAnnouncements : Bool}
  {store : Store} {start s : Stage} {past : List Deed}

/-- No retry of any resource is due before time passes. -/
def Stage.IsPatient (s : Stage) : Prop := ∀ r, (s.scene r).machine.IsPatient

theorem Run.isPatient (later : 0 < policy.baseDelay.nanos)
    (run : Run Allowed (.new policy hasAnnouncements store) past s) : s.IsPatient := by
  intro r
  have scene : Sync.Run (fun _ _ => True) (.new policy store) (incidents r past) (s.scene r) :=
    run.scene fun _ _ _ _ _ _ => trivial
  have both : (s.scene r).machine.policy = policy ∧ (s.scene r).machine.IsPatient := by
    generalize incidents r past = past, s.scene r = s at scene
    induction scene with
    | nil => exact ⟨rfl, rfl⟩
    | @cons _ s e _ _ ih => exact ⟨(Sync.policy_next s e).trans ih.1, ih.2.next (ih.1 ▸ later) e⟩
  exact both.2

/-- All that holds along every run may be asked of the stages of a run. -/
theorem Run.along {P : Stage → Prop} (holds : ∀ past s, Run Allowed start past s → P s)
    (run : Run Allowed start past s) : Run (fun s _ _ => P s) start past s := by
  induction run with
  | nil => exact .nil
  | cons run _ ih => exact ih.cons (holds _ _ run)

/-- Records of nobody stay as they are. -/
theorem Run.find?_eq {key : String} (other : ∀ r : Resource, key ≠ Cache.recordKey r.name)
    (run : Run Allowed start past s) :
    s.store.records.find? key = start.store.records.find? key := by
  induction run with
  | nil => rfl
  | @cons _ s r m _ _ ih =>
    rw [← ih]
    rcases s.store_cases r m with ⟨e, h⟩ | h | h
    · rw [h]
      rcases Cache.keep_cases r s.store e.con e.value e.etag with h | h <;> rw [h]
      exact Records.find?_insert_of_ne (other r) ..
    · rw [h]
    · rw [h]
      rcases Cache.drop_cases r s.store with h | h <;> rw [h]
      exact Records.find?_erase_of_ne (other r) _

end Convention

/-! ## Clients -/

namespace Client

open Convention (Run)

variable {σ : Type} {v : Service σ} {start : Stage} {c : Client σ}

/-! ### One step of each loop -/

/-- Asks the server and handles its answer. -/
def answered (v : Service σ) (r : Resource) (ticket : Nat) (f : Sync.Flight) (c : Client σ) :
    Progress × Client σ :=
  { c with server := (v.ask r f.con f.etag c.server).2 }.act r
    (.answer ticket 0 (v.ask r f.con f.etag c.server).1)

theorem carry_sent (r : Resource) (requests ticket : Nat) (f : Sync.Flight) (c : Client σ) :
    carry v r (requests + 1) (.sent ticket f) c =
      carry v r requests (c.answered v r ticket f).1 (c.answered v r ticket f).2 := rfl

theorem perform_eq (r : Resource) (m : Move) (c : Client σ) :
    c.perform v r m = carry v r requestLimit (c.act r m).1 (c.act r m).2 := rfl

theorem forEach_cons (f : Resource → Client σ → Progress × Client σ) (r : Resource)
    (rs : List Resource) (c : Client σ) :
    forEach f (r :: rs) c =
      ((r, (f r c).1) :: (forEach f rs (f r c).2).1, (forEach f rs (f r c).2).2) := rfl

/-- What is left of an activation: the end of a reload in the background. -/
def await (v : Service σ) (p : Progress) (r : Resource) (c : Client σ) : Progress × Client σ :=
  match p with
  | .cached (some ticket) => c.perform v r (.start ticket)
  | p => (p, c)

/-- What is left of a refresh. -/
def join (v : Service σ) (p : Progress) (r : Resource) (c : Client σ) : Progress × Client σ :=
  match p with
  | .joined ticket => c.perform v r (.start ticket)
  | p => (p, c)

theorem refresh_join (con : String) (r : Resource) (c : Client σ) :
    refresh v con r c =
      join v (c.perform v r (.refresh con)).1 r (c.perform v r (.refresh con)).2 := by
  unfold refresh
  obtain ⟨p, c⟩ := c.perform v r (.refresh con)
  cases p <;> rfl

theorem carry_of_ne {p : Progress} (none : ∀ ticket f, p ≠ .sent ticket f) (r : Resource)
    (requests : Nat) (c : Client σ) : carry v r requests p c = (p, c) := by
  cases requests with
  | zero => rfl
  | succ requests =>
    cases p with
    | sent ticket f => exact absurd rfl (none ticket f)
    | _ => rfl

theorem revalidate_cons (r : Resource) (p : Progress) (results : List (Resource × Progress))
    (c : Client σ) :
    revalidate v ((r, p) :: results) c = revalidate v results (await v p r c).2 := by
  cases p with
  | cached revalidation => cases revalidation <;> rfl
  | _ => rfl

theorem display_eq (con : String) (now : Time.Instant) (c : Client σ) :
    (c.display v con now).2 =
      revalidate v (forEach (fun r c => c.perform v r (.activate con)) c.convention.resources c).1
        (forEach (fun r c => c.perform v r (.activate con)) c.convention.resources c).2 := by
  rw [display]

theorem reload_eq (con : String) (now : Time.Instant) (c : Client σ) :
    (c.reload v con now).2 = (forEach (refresh v con) c.convention.resources c).2 := by
  rw [reload]

theorem display_text (con : String) (now : Time.Instant) (c : Client σ) :
    (c.display v con now).1 = (c.display v con now).2.summaryText con now := by
  rw [display]

theorem reload_text (con : String) (now : Time.Instant) (c : Client σ) :
    (c.reload v con now).1 =
      reloadText (forEach (refresh v con) c.convention.resources c).1 ++
        (c.reload v con now).2.summaryText con now := by
  rw [reload]

/-! ### Runs -/

/-- The con of a client, and its store. -/
def stage (c : Client σ) : Stage := ⟨c.store, c.convention⟩

theorem scene_act (r : Resource) (m : Move) (c : Client σ) :
    (c.act r m).2.stage.scene r = (c.stage.scene r).next (.move m c.store.failing) :=
  c.stage.scene_next_self m

theorem progress_act (r : Resource) (m : Move) (c : Client σ) :
    (c.act r m).1 = (c.stage.scene r).progress (.move m c.store.failing) := rfl

theorem kind_act (r : Resource) (m : Move) (c : Client σ) :
    (c.act r m).2.store.kind = c.store.kind := (c.stage.keeps_next r m).1

/-- Moves can lead to what the client has come to. -/
def Reaches (start : Stage) (c : Client σ) : Prop :=
  ∃ past, Run (fun _ _ _ => True) start past c.stage

/-- Moves have led to what the client has come to, and there has been no retry that was due without
any time passing. -/
def Calmly (start : Stage) (c : Client σ) : Prop :=
  c.stage.IsPatient ∧ ∃ past, Run (fun s _ _ => s.IsPatient) start past c.stage

namespace Reaches

theorem has (h : Reaches start c) :
    c.convention.hasAnnouncements = start.convention.hasAnnouncements := by
  obtain ⟨past, run⟩ := h
  exact run.has .announcements

theorem act (h : Reaches start c) (r : Resource) (m : Move) : Reaches start (c.act r m).2 := by
  obtain ⟨past, run⟩ := h
  exact ⟨_, run.cons (r := r) (m := m) trivial⟩

theorem carry (r : Resource) (requests : Nat) (p : Progress) (h : Reaches start c) :
    Reaches start (Client.carry v r requests p c).2 := by
  induction requests generalizing p c with
  | zero => exact h
  | succ requests ih =>
    cases p with
    | sent ticket f =>
      rw [carry_sent]
      refine ih _ (act ?_ r _)
      exact h
    | _ => exact h

theorem perform (h : Reaches start c) (r : Resource) (m : Move) :
    Reaches start (c.perform v r m).2 := by
  rw [perform_eq]
  exact (h.act r m).carry r _ _

theorem refresh (h : Reaches start c) (con : String) (r : Resource) :
    Reaches start (Client.refresh v con r c).2 := by
  have performed := h.perform (v := v) r (.refresh con)
  rw [refresh_join]
  unfold join
  split
  · exact performed.perform r _
  · exact performed

theorem forEach {f : Resource → Client σ → Progress × Client σ}
    (each : ∀ r c, Reaches start c → Reaches start (f r c).2) (rs : List Resource)
    (h : Reaches start c) : Reaches start (Client.forEach f rs c).2 := by
  induction rs generalizing c with
  | nil => exact h
  | cons r rs ih => exact ih (each r c h)

theorem await (h : Reaches start c) (p : Progress) (r : Resource) :
    Reaches start (Client.await v p r c).2 := by
  unfold Client.await
  split
  · exact h.perform r _
  · exact h

theorem revalidate (results : List (Resource × Progress)) (h : Reaches start c) :
    Reaches start (Client.revalidate v results c) := by
  induction results generalizing c with
  | nil => exact h
  | cons result results ih =>
    rw [revalidate_cons]
    exact ih (h.await result.2 result.1)

theorem display (h : Reaches start c) (con : String) (now : Time.Instant) :
    Reaches start (c.display v con now).2 := by
  rw [display_eq]
  exact (h.forEach (fun r _ h => h.perform r _) _).revalidate _

theorem reload (h : Reaches start c) (con : String) (now : Time.Instant) :
    Reaches start (c.reload v con now).2 := by
  rw [reload_eq]
  exact h.forEach (fun r _ h => h.refresh con r) _

theorem calmly {policy : Policy} {hasAnnouncements : Bool} {store : Store}
    (later : 0 < policy.baseDelay.nanos) (h : Reaches (.new policy hasAnnouncements store) c) :
    Calmly (.new policy hasAnnouncements store) c := by
  obtain ⟨past, run⟩ := h
  exact ⟨run.isPatient later, past, run.along fun _ _ run => run.isPatient later⟩

end Reaches

end Client

end OfflineSchedule
