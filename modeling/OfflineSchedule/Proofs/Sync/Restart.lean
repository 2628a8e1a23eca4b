import OfflineSchedule.Proofs.Cache.Envelope
import OfflineSchedule.Proofs.Sync.Offline
/-!
# What a new synchronizer finds

A synchronizer that begins over a store with the record of a value shows that value, as it was kept,
whenever its con is selected, and asks about it under its etag, for as long as every request fails.
Nothing can take its place: a failure neither touches the store nor puts a value on display, so all
values on display come out of the record (`Restored`).
-/

namespace OfflineSchedule.Sync

open Http (Outcome)
open Json (Value)
open Retry (Policy)

variable {r : Resource} {s s' : Scene r} {past : List (Incident r)} {kept : Envelope r.Live}

/-- The answer brings nothing: nobody answers, the server refuses, or the payload cannot be
decoded. -/
def IsFailure (r : Resource) : Outcome Value → Prop
  | .success payload _ _ => ∀ value, r.liveOfValue payload ≠ .ok value
  | .notModified => False
  | .error _ => True

/-- Every request fails and nobody clears the cache. Reads never fail, and the record of the
resource is left to the synchronizer. -/
def Offline (s : Scene r) (e : Event) : Prop :=
  SoleWriter s e ∧ ∀ m faults, e = .move m faults → m ≠ .clear ∧
    ∀ ticket now o, m = .answer ticket now o → IsFailure r o

/-- The value is still kept, and no other is on display. -/
structure Restored (kept : Envelope r.Live) (s : Scene r) : Prop where
  readable : .get ∉ s.store.failing
  record : Cache.record? r s.store = some (Cache.recordText r kept.con kept.value kept.etag)
  published : ∀ value etag, s.sync.published = .success value etag →
    value = kept.value ∧ etag = kept.etag

/-! ## The invariant -/

namespace Restored

variable {i : Incident r}

/-- Nothing but the store and what is published counts. -/
theorem congr (h : Restored kept s) (store : s'.store = s.store)
    (published : s'.sync.published = s.sync.published) : Restored kept s' :=
  ⟨store ▸ h.readable, store ▸ h.record, published ▸ h.published⟩

/-- What is found in the cache is the value that is kept. -/
theorem of_usable? (h : Restored kept s)
    (decoded : r.ofStored (r.toStored kept.value) = .ok kept.value) {con : String} {value : r.Live}
    {etag : Option String} (usable : Cache.usable? r s.store con = some (value, etag)) :
    value = kept.value ∧ etag = kept.etag := by
  obtain ⟨-, etag_eq, again⟩ := Cache.of_usable? h.record usable
  exact ⟨Except.ok.inj (again.symm.trans decoded), etag_eq⟩

/-- A failure leaves the value or takes it off display. -/
theorem published_fail (f : Flight) (code : Nat) (y : Sync r) :
    (y.fail f code).published = y.published ∨ (y.fail f code).published = .error code := by
  unfold fail
  split
  · exact .inl rfl
  · exact .inr rfl

theorem act (h : Restored kept s) (decoded : r.ofStored (r.toStored kept.value) = .ok kept.value)
    (allowed : Offline i.before i.event) (act : Act i s s') : Restored kept s' := by
  cases act with
  | found _ _ usable =>
    refine ⟨h.readable, h.record, fun value etag published => ?_⟩
    cases published
    exact h.of_usable? decoded usable
  | begun => exact h.congr rfl (published_select _ _)
  | started => exact h.congr rfl (published_select _ _)
  | @settled ticket now o faults f reload store y event _ _ _ settled =>
    have failure : IsFailure r o := (allowed.2 _ faults event).2 ticket now o rfl
    cases settled with
    | superseded => exact h.congr rfl rfl
    | updated answer decoded =>
      subst answer
      exact absurd decoded (failure _)
    | notModified answer =>
      subst answer
      cases failure
    | @failed code =>
      refine ⟨h.readable, h.record, fun value etag published => ?_⟩
      have published : (s.sync.fail f code).published = .success value etag := published
      rcases published_fail f code s.sync with same | failed
      · rw [same] at published
        exact h.published value etag published
      · rw [failed] at published
        cases published
  | @again ticket now faults _ event =>
    exact absurd ((allowed.2 _ faults event).2 ticket now _ rfl) id
  | @cleared faults event => exact absurd rfl (allowed.2 _ faults event).1
  | @interfered store event first =>
    subst first
    obtain ⟨allowed, -⟩ := allowed
    rw [event] at allowed
    exact ⟨allowed.1, allowed.2.trans h.record, h.published⟩
  | _ => exact h.congr rfl rfl

end Restored

section

variable {policy : Policy} {store : Store}

theorem Run.restored (readable : .get ∉ store.failing)
    (record : Cache.record? r store = some (Cache.recordText r kept.con kept.value kept.etag))
    (decoded : r.ofStored (r.toStored kept.value) = .ok kept.value)
    (run : Run Offline (.new policy store) past s) : Restored kept s := by
  induction run with
  | nil => exact ⟨readable, record, nofun⟩
  | @cons _ s e _ allowed ih =>
    exact acts_induction (I := Restored kept) ih fun _ _ act h => h.act decoded allowed act

/-! ## What is shown and asked -/

/-- The value is on display whenever its con is selected. -/
theorem Run.restored_current (readable : .get ∉ store.failing)
    (record : Cache.record? r store = some (Cache.recordText r kept.con kept.value kept.etag))
    (decoded : r.ofStored (r.toStored kept.value) = .ok kept.value)
    (run : Run Offline (.new policy store) past s) (selected : s.sync.selected = some kept.con) :
    s.sync.current = .success kept.value kept.etag := by
  have restored := run.restored readable record decoded
  have available := (run.mono fun _ _ h => h.1).available readable
  have usable := Cache.usable?_of_kept restored.readable restored.record decoded
  have shown := available.displayed kept.con selected (Option.isSome_of_eq_some usable)
  obtain ⟨owner, success⟩ := status_eq_success.1 shown
  rw [current, if_pos owner]
  cases published : s.sync.published with
  | success value etag =>
    obtain ⟨rfl, rfl⟩ := restored.published value etag published
    rfl
  | pending => simp [published, Published.isSuccess] at success
  | error code => simp [published, Published.isSuccess] at success

/-- Requests for its con ask about its etag. -/
theorem Restored.sent (restored : Restored kept s) {e : Event} (allowed : Offline s e) {k : Nat}
    {f : Flight} (sent : s.progress e = .sent k f) (con : f.con = kept.con) :
    f.etag = kept.etag := by
  rcases sent_cases sent with ⟨faults, why, told, -⟩ | ⟨-, ticket, now, faults, rfl⟩
  · have readable : .get ∉ faults := by
      rcases why with rfl | ⟨m, rfl⟩
      · exact restored.readable
      · exact allowed.1
    rw [told, con]
    exact Cache.etag?_of_kept (s := { s.store with failing := faults }) readable restored.record
  · exact absurd ((allowed.2 _ faults rfl).2 ticket now _ rfl) id

/-- The first activation of its con shows it and leaves a revalidation to the background. -/
theorem activate_new (policy : Policy) (readable : .get ∉ store.failing)
    (record : Cache.record? r store = some (Cache.recordText r kept.con kept.value kept.etag))
    (decoded : r.ofStored (r.toStored kept.value) = .ok kept.value)
    (faults : List StoreOperation) :
    let start : Scene r := .new policy store
    let activation := Event.move (.activate kept.con) faults
    start.progress activation = .cached (some 0) ∧
      (start.next activation).machine.job? 0 = some .queued ∧
      (start.next activation).sync.selected = some kept.con := by
  intro start activation
  have usable := Cache.usable?_of_kept readable record decoded
  have hidden : start.sync.isShowing kept.con = false := rfl
  have result : start.sync.activate kept.con store =
      (.cached true, start.sync.found kept.con kept.value kept.etag) := by
    rcases activate_cases kept.con store start.sync with
      ⟨showing, -⟩ | ⟨-, missing, -⟩ | ⟨value, etag, -, found, activated⟩
    · rw [hidden] at showing
      cases showing
    · rw [usable] at missing
      cases missing
    · rw [usable] at found
      cases found
      exact activated
  have step : start.perform activation = (.cached (some 0), ⟨store,
      ({ start.machine with sync := start.sync.found kept.con kept.value kept.etag }.addJob
        .queued).2⟩) := by
    simp only [Scene.perform, activation, Machine.step, Machine.beside, Machine.activate]
    rw [show start.machine.sync.activate kept.con start.store = _ from result]
    rfl
  refine ⟨congrArg Prod.fst step, ?_, selected_next start activation⟩
  rw [show start.next activation = _ from congrArg Prod.snd step]
  exact (Machine.job?_setJob 0 0 .queued _).trans (if_pos rfl)

end

end OfflineSchedule.Sync
