import OfflineSchedule.Proofs.Schedule.Live
import OfflineSchedule.Proofs.Sync.Allowance
import OfflineSchedule.Proofs.Sync.Provenance
/-!
# One thing at a time

Whoever asks for something waits until all has ended that came of what was asked for before. Then no
more than one thing is outstanding at a time, and what a request was told about the record holds
until the request is answered, since nothing but its answer touches the record. A confirmation
therefore never finds a record missing that could have been used, and over a store that never fails
the record is that of the last fresh answer (`Recorded`).
-/

namespace OfflineSchedule.Sync

open Http (Outcome)
open Json (Value)
open Retry (Moment Policy)

variable {r : Resource} {s : Scene r} {past : List (Incident r)}

/-! ## Definitions -/

/-- The value that an answer brought last, unless the cache was cleared since. -/
def lastFresh? : List (Incident r) → Option (Envelope r.Live)
  | [] => none
  | i :: past => if i.event.isClear then none else i.fresh?.or (lastFresh? past)

/-- Cons and reloads are asked for, and the cache is cleared, only while nothing is outstanding. The
store goes on to fail in nothing new, and the record is left to the synchronizer. -/
def OneByOne (s : Scene r) : Event → Prop
  | .move m faults => faults = s.store.failing ∧
      ((Event.move m faults).isUnasked = false ∨ (Event.move m faults).isClear = true →
        s.machine.outstanding = 0)
  | .interference store => store.kind = s.store.kind ∧ store.failing = s.store.failing ∧
      Cache.record? r store = Cache.record? r s.store

/-- The years of all instants of a value can be read. -/
def IsReadable (r : Resource) (value : r.Live) : Prop := ∀ t ∈ r.instants value, t.IsReadable

instance (value : r.Live) : Decidable (IsReadable r value) :=
  inferInstanceAs (Decidable (∀ t ∈ r.instants value, t.IsReadable))

/-! ## Only one thing is outstanding -/

/-- To select a con can but stop the timer. -/
theorem calls_select {m : Machine r} {y : Sync r} {con : String}
    (retry : y.retry = (m.sync.select con).retry) : { m with sync := y }.calls ≤ m.calls := by
  rcases select_cases con m.sync with same | stopped
  · rw [same] at retry
    show m.triggers + y.retry.isPending.toNat ≤ m.triggers + m.sync.retry.isPending.toNat
    rw [retry]
  · exact calls_of_stopped (isRetrying_of_timer_none (retry ▸ stopped)) rfl

/-- An activation begins at most one reload, and none if nobody has to wait. -/
theorem activate_outstanding (m : Machine r) (con : String) (store : Store)
    (faults : List StoreOperation) :
    (m.activate con store faults).2.outstanding ≤ m.outstanding + 1 ∧
    ((m.activate con store faults).1 = .unchanged ∨
      (m.activate con store faults).1 = .cached none →
      (m.activate con store faults).2.outstanding ≤ m.outstanding) := by
  unfold Machine.activate
  rcases activate_cases con store m.sync with ⟨-, ha⟩ | ⟨-, -, ha⟩ | ⟨value, etag, -, -, ha⟩
  · rw [ha]
    exact ⟨Nat.le_succ _, fun _ => Nat.le_refl _⟩
  · rw [ha]
    have selected : { m with sync := m.sync.select con }.outstanding ≤ m.outstanding :=
      outstanding_le (calls_select rfl) (Nat.le_refl _)
    obtain ⟨-, begun, -⟩ :=
      reload_tally { m with sync := m.sync.select con } { store with failing := faults }
    refine ⟨Nat.le_trans begun (Nat.succ_le_succ selected), fun none => ?_⟩
    simp only [Machine.reload, issue_select] at none
    rcases none with none | none <;> cases none
  · rw [ha]
    have calls : { m with sync := m.sync.found con value etag }.calls ≤ m.calls := calls_select rfl
    cases m.sync.revalidated with
    | true =>
      have same := outstanding_le calls (Nat.le_refl m.jobs.length)
      exact ⟨Nat.le_succ_of_le same, fun _ => same⟩
    | false =>
      have jobs := length_setJob m.nextTicket .queued m
      have begun : { m with sync := m.sync.found con value etag }.calls +
          (m.setJob m.nextTicket .queued).jobs.length ≤ m.calls + (m.jobs.length + 1) :=
        Nat.add_le_add calls jobs
      refine ⟨begun, ?_⟩
      rintro (none | none) <;> cases none

/-- So does a refreshment. -/
theorem refresh_outstanding (m : Machine r) (con : String) (store : Store)
    (faults : List StoreOperation) :
    (m.refresh con store faults).2.outstanding ≤ m.outstanding + 1 := by
  obtain ⟨begun, none⟩ := activate_outstanding m con store faults
  unfold Machine.refresh
  split <;> rename_i h
  · rw [h] at begun
    exact begun
  · rw [h] at none
    exact Nat.le_trans (reload_tally _ _).2.1 (Nat.succ_le_succ (none (.inr rfl)))
  · rw [h] at none
    exact Nat.le_trans (reload_tally _ _).2.1 (Nat.succ_le_succ (none (.inl rfl)))
  · exact begun

theorem OneByOne.outstanding_le {e : Event} (allowed : OneByOne s e)
    (single : s.machine.outstanding ≤ 1) : (s.next e).machine.outstanding ≤ 1 := by
  cases unasked : e.isUnasked with
  | true =>
    rcases tally_next (s := s) unasked with tally | shutdown
    · exact Nat.le_trans tally.outstanding_le single
    · obtain ⟨faults, rfl⟩ := exists_of_isShutdown shutdown
      have calls : { s.machine with sync := s.sync.resetRetry }.calls ≤ s.machine.calls :=
        calls_of_stopped rfl rfl
      exact Nat.le_trans (Sync.outstanding_le calls (Nat.le_refl _)) single
  | false =>
    cases e with
    | interference store => cases unasked
    | move m faults =>
      have idle : s.machine.outstanding = 0 := allowed.2 (.inl unasked)
      cases m with
      | activate con =>
        have begun := (activate_outstanding s.machine con s.store faults).1
        rwa [idle] at begun
      | refresh con =>
        have begun := refresh_outstanding s.machine con s.store faults
        rwa [idle] at begun
      | reload =>
        have begun := (reload_tally s.machine s.store).2.1
        rwa [idle] at begun
      | _ => cases unasked

/-- Then there is one reload at most. -/
theorem ticket_unique {m : Machine r} (single : m.outstanding ≤ 1) {k k' : Nat} {j j' : Job}
    (h : m.job? k = some j) (h' : m.job? k' = some j') : k = k' := by
  have jobs : m.jobs.length ≤ 1 := Nat.le_trans (Nat.le_add_left _ m.calls) single
  obtain ⟨p, found, -⟩ := Option.map_eq_some_iff.1 h
  obtain ⟨p', found', -⟩ := Option.map_eq_some_iff.1 h'
  have ticket : p.1 = k := by simpa using List.find?_some found
  have ticket' : p'.1 = k' := by simpa using List.find?_some found'
  have mem := List.mem_of_find?_eq_some found
  have mem' := List.mem_of_find?_eq_some found'
  match hj : m.jobs, jobs with
  | [], _ => simp [hj] at mem
  | [q], _ =>
    rw [hj, List.mem_singleton] at mem mem'
    rw [← ticket, ← ticket', mem, mem']

theorem outstanding_pos {m : Machine r} {k : Nat} {j : Job} (h : m.job? k = some j) :
    0 < m.outstanding := by
  have fewer := length_endJob_lt h
  have jobs : m.jobs.length ≤ m.outstanding := Nat.le_add_left _ _
  omega

/-! ## The record follows the fresh answers -/

/-- Over a store that never fails, what is brought is kept. -/
theorem kept?_of_sound {i : Incident r} (sound : i.before.store.IsSound) : i.kept? = i.fresh? := by
  unfold Incident.kept?
  cases i.fresh? with
  | none => rfl
  | some e => exact if_pos (sound.reaches e.con e.value e.etag)

/-- The last value that was brought can be decoded from the shape that it is stored in. -/
theorem decoded_of_lastFresh? {kept : Envelope r.Live} (h : lastFresh? past = some kept)
    (readable : IsReadable r kept.value) : r.ofStored (r.toStored kept.value) = .ok kept.value := by
  induction past with
  | nil => cases h
  | cons i past ih =>
    simp only [lastFresh?] at h
    split at h
    · cases h
    · rcases Option.or_eq_some_iff.1 h with fresh | ⟨-, earlier⟩
      · obtain ⟨-, payload, -, decoded, -⟩ := answered_of_fresh? (List.mem_singleton.2 rfl) fresh
        exact Resource.ofStored_toStored_of_liveOfValue decoded readable
      · exact ih earlier

/-- What holds of a scene while one thing is asked for at a time. -/
structure Recorded (past : List (Incident r)) (s : Scene r) : Prop where
  sound : s.store.IsSound
  single : s.machine.outstanding ≤ 1
  /-- What a request was told about the record still holds. -/
  asked : ∀ k f tag, s.Waits k f → f.etag = some tag → Cache.etag? r s.store f.con = some tag
  /-- The record is that of the last fresh answer. -/
  record : ∀ kept, lastFresh? past = some kept → IsReadable r kept.value →
    Cache.record? r s.store = some (Cache.recordText r kept.con kept.value kept.etag)

namespace Recorded

variable {e : Event}

theorem sound_next (h : Recorded past s) (allowed : OneByOne s e) : (s.next e).store.IsSound := by
  rcases store_after (⟨s, e⟩ : Incident r) with
    ⟨kept, -, -, after⟩ | ⟨-, after | ⟨after, -⟩ | event⟩
  · rw [show (s.next e).store = Cache.keep r s.store kept.con kept.value kept.etag from after]
    exact h.sound.congr (Cache.kind_keep ..) (Cache.failing_keep ..)
  · exact (show (s.next e).store = s.store from after) ▸ h.sound
  · rw [show (s.next e).store = Cache.drop r s.store from after]
    exact h.sound.congr (Cache.kind_drop ..) (Cache.failing_drop ..)
  · have he : e = .interference (s.next e).store := event
    rw [he] at allowed
    exact h.sound.congr allowed.1 allowed.2.1

/-- While a request with a condition waits, the record stays as it is. -/
theorem etag?_next (h : Recorded past s) (allowed : OneByOne s e) {k : Nat} {f : Flight}
    {tag : String} (waited : s.Waits k f) (waits : (s.next e).Waits k f) (asked : f.etag = some tag) :
    Cache.etag? r (s.next e).store f.con = Cache.etag? r s.store f.con := by
  cases e with
  | interference store =>
    obtain ⟨-, failing, same⟩ := allowed
    have readable : .get ∉ store.failing := by simp [failing, h.sound.failing]
    have text : Cache.text? store r.name = Cache.text? s.store r.name := by
      rw [Cache.text?_of_readable readable, Cache.text?_of_readable h.sound.readable, same]
    exact Cache.etag?_congr text f.con
  | move m faults =>
    cases m with
    | clear =>
      -- Nobody clears the cache while a reload is out.
      have idle := allowed.2 (.inr rfl)
      have busy := outstanding_pos waited
      omega
    | answer ticket now o =>
      rcases waits_or_idle s ticket with ⟨g, waited'⟩ | idle
      · -- The request would have been made again, and without the condition.
        obtain rfl := ticket_unique h.single waited waited'
        have sent := (waits_answered waited now o faults f).1 waits
        rcases next_answer waited now o faults with ⟨reload, ended, -⟩ | ⟨again, -⟩
        · exact nomatch ended.symm.trans sent
        · have same : { f with etag := none } = f := (Progress.sent.inj (again.symm.trans sent)).2
          rw [← same] at asked
          cases asked
      · rw [Scene.next, perform_answer_idle idle]
    | _ => rfl

theorem asked_next (h : Recorded past s) (allowed : OneByOne s e) (k : Nat) (f : Flight)
    (tag : String) (waits : (s.next e).Waits k f) (asked : f.etag = some tag) :
    Cache.etag? r (s.next e).store f.con = some tag := by
  rcases waits_next waits with sent | waited
  · rcases sent_cases sent with ⟨faults, why, told, same⟩ | ⟨unasked, -⟩
    · have faults_eq : faults = s.store.failing := by
        rcases why with rfl | ⟨m, rfl⟩
        · rfl
        · exact allowed.1
      subst faults_eq
      rw [same, ← asked]
      exact told.symm
    · rw [asked] at unasked
      cases unasked
  · rw [h.etag?_next allowed waited waits asked]
    exact h.asked k f tag waited asked

/-- A request that is told that nothing has changed finds the record that it asked about. -/
theorem not_dropped (h : Recorded past s) {kept : Envelope r.Live}
    (last : lastFresh? past = some kept) (readable : IsReadable r kept.value)
    (uncleared : e.isClear = false) : ¬ (⟨s, e⟩ : Incident r).Drops := by
  rintro (clear | ⟨ticket, f, waited, asked, unusable⟩)
  · rw [uncleared] at clear
    cases clear
  · obtain ⟨tag, asked⟩ := Option.isSome_iff_exists.1 asked
    have record := h.record kept last readable
    obtain ⟨con, -⟩ := Cache.of_etag? record (h.asked ticket f tag waited asked)
    have usable := Cache.usable?_of_kept h.sound.readable record (decoded_of_lastFresh? last readable)
    rw [← con, unusable] at usable
    cases usable

theorem record_next (h : Recorded past s) (allowed : OneByOne s e) (kept : Envelope r.Live)
    (last : lastFresh? (⟨s, e⟩ :: past) = some kept) (readable : IsReadable r kept.value) :
    Cache.record? r (s.next e).store =
      some (Cache.recordText r kept.con kept.value kept.etag) := by
  simp only [lastFresh?] at last
  split at last
  · cases last
  · rename_i uncleared
    rw [← kept?_of_sound (i := ⟨s, e⟩) h.sound] at last
    rcases store_after (⟨s, e⟩ : Incident r) with
      ⟨brought, some, -, after⟩ | ⟨none, after⟩
    · rw [some] at last
      cases last
      rw [show (s.next e).store = Cache.keep r s.store kept.con kept.value kept.etag from after]
      exact h.sound.record?_keep kept.con kept.value kept.etag
    · -- Nothing was brought, so the record is to be the one that it was.
      rw [none, Option.none_or] at last
      have record := h.record kept last readable
      rcases after with after | ⟨-, drops⟩ | event
      · rwa [show (s.next e).store = s.store from after]
      · exact absurd drops (h.not_dropped last readable (by simpa using uncleared))
      · have he : e = .interference (s.next e).store := event
        rw [he] at allowed
        exact allowed.2.2.trans record

theorem next (h : Recorded past s) (allowed : OneByOne s e) :
    Recorded (⟨s, e⟩ :: past) (s.next e) :=
  ⟨h.sound_next allowed, allowed.outstanding_le h.single, h.asked_next allowed,
    h.record_next allowed⟩

end Recorded

theorem Run.recorded {policy : Policy} {store : Store} (sound : store.IsSound)
    (run : Run OneByOne (.new policy store) past s) : Recorded past s := by
  induction run with
  | nil => exact ⟨sound, Nat.zero_le 1, nofun, nofun⟩
  | cons _ allowed ih => exact ih.next allowed

end OfflineSchedule.Sync
