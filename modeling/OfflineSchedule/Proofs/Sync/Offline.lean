import OfflineSchedule.Proofs.Sync.Isolation
/-!
# What is cached is shown

As long as the store can be read and nobody else writes under the key of the resource, a usable
record of the selected con is on display, whatever the server answers and however often it fails.
A failure looks only at what is displayed, never at the store. That this is enough is the invariant
`Available`: when a con is selected while there is nothing usable for it, only an answer to a
request for it can bring a record, and the same answer brings its value on display.
-/

namespace OfflineSchedule.Sync

open Json (Tree Value)
open Retry (Policy)

variable {r : Resource} {s s' : Scene r} {past : List (Incident r)}

/-- Reads never fail, and the record of the resource is left to the synchronizer. -/
def SoleWriter (s : Scene r) : Event → Prop
  | .move _ faults => .get ∉ faults
  | .interference store => .get ∉ store.failing ∧ Cache.record? r store = Cache.record? r s.store

/-- The store can be read, and what is usable of the selected con is on display. -/
structure Available (s : Scene r) : Prop where
  readable : .get ∉ s.store.failing
  displayed : ∀ con, s.sync.selected = some con → (Cache.usable? r s.store con).isSome →
    s.sync.status = .success

/-! ## The invariant -/

theorem Settled.failing {policy : Policy} {now : Retry.Moment} {f : Flight}
    {o : Http.Outcome Value} {store store' : Store} {y y' : Sync r} {reload : Reload}
    (h : Settled policy now f o store y reload store' y') : store'.failing = store.failing := by
  rcases h.store_cases with rfl | ⟨_, value, etag, -, -, rfl⟩
  · rfl
  · exact Cache.failing_keep r store f.con value etag

theorem status_eq_success {y : Sync r} :
    y.status = .success ↔ y.owner = y.selected ∧ y.published.isSuccess = true := by
  unfold status current
  by_cases h : y.owner = y.selected
  · simp [h, Published.isSuccess_iff_status]
  · simp [h, Published.status]

theorem status_display {con : String} {y : Sync r} {value : r.Live} {etag : Option String}
    (selected : y.selected = some con) (owner : y.owner = some con)
    (published : y.published = .success value etag) : y.status = .success :=
  status_eq_success.2 ⟨owner.trans selected.symm, by rw [published]; rfl⟩

/-- A failure leaves a value of the selected con as it is. -/
theorem fail_of_success {f : Flight} {y : Sync r} (code : Nat) (sourced : Sourced past y)
    (selected : y.selected = some f.con) (success : y.status = .success) :
    y.fail f code = { y with owner := some f.con }.resetRetry := by
  obtain ⟨owner, published⟩ := status_eq_success.1 success
  have shown : y.shown = some f.con := by
    cases sourced with
    | pending hp => simp [hp, Published.isSuccess] at published
    | success _ ho hs => exact hs.trans (ho.symm.trans (owner.trans selected))
    | error hp => simp [hp, Published.isSuccess] at published
  unfold fail
  exact if_pos (by simp [published, shown])

/-- A failure does not take a value of the selected con off display. -/
theorem status_fail {f : Flight} {y : Sync r} (code : Nat) (sourced : Sourced past y)
    (selected : y.selected = some f.con) (success : y.status = .success) :
    (y.fail f code).status = .success := by
  rw [fail_of_success code sourced selected success]
  exact status_eq_success.2 ⟨selected.symm, (status_eq_success.1 success).2⟩

/-- An answer that counts brings its value on display, or leaves what is on display. -/
theorem Settled.displayed {policy : Policy} {now : Retry.Moment} {f : Flight}
    {o : Http.Outcome Value} {store store' : Store} {y y' : Sync r} {reload : Reload}
    (displayed : ∀ con, y.selected = some con → (Cache.usable? r store con).isSome →
      y.status = .success)
    (sourced : Sourced past y) (selected_of_latest : y.isLatest f = true → y.selected = some f.con)
    (h : Settled policy now f o store y reload store' y') :
    ∀ con, y'.selected = some con → (Cache.usable? r store' con).isSome → y'.status = .success := by
  cases h with
  | superseded => exact displayed
  | @updated _ _ _ stale _ _ latest =>
    intro con _ _
    have selected := selected_of_latest latest
    cases stale <;> exact status_display selected rfl rfl
  | notModified _ _ latest =>
    intro con _ _
    exact status_display (selected_of_latest latest) rfl rfl
  | @failed code latest =>
    intro con hs usable
    have selected := selected_of_latest latest
    rw [selected_fail] at hs
    exact status_fail code sourced selected (displayed con hs usable)

theorem Available.part {i : Incident r} (h : Available s) (allowed : SoleWriter i.before i.event)
    (orderly : Orderly s) (sourced : Sourced (i :: past) s.sync) (p : Part i s s') :
    Available s' := by
  cases p with
  | rest store sync =>
    obtain ⟨retry, sync⟩ := sync
    refine ⟨store ▸ h.readable, fun con hs usable => ?_⟩
    rw [sync] at hs ⊢
    rw [store] at usable
    exact h.displayed con hs usable
  | found _ _ _ store sync =>
    refine ⟨store ▸ h.readable, fun _ _ _ => ?_⟩
    rw [sync]
    exact status_display (selected_select _ _) rfl rfl
  | @begun _ con _ _ why store sync =>
    refine ⟨store ▸ h.readable, fun con' hs usable => ?_⟩
    rw [store] at usable
    have selected : s'.sync.selected = some con := by rw [sync]; exact selected_select con s.sync
    obtain rfl : con = con' := Option.some.inj (selected.symm.trans hs)
    rcases why with selected | ⟨-, unusable⟩
    · rw [sync, begun, select_of_selected selected]
      exact h.displayed con selected usable
    · simp [unusable] at usable
  | @settled _ ticket _ _ _ f _ _ _ waited _ settled =>
    refine ⟨?_, settled.displayed h.displayed sourced fun latest =>
      orderly.selected_of_latest ticket f waited (isLatest_iff.1 latest)⟩
    rw [settled.failing]
    exact h.readable
  | again _ _ _ _ _ _ store sync =>
    refine ⟨store ▸ Cache.failing_drop r s.store ▸ h.readable, fun con hs usable => ?_⟩
    rw [sync] at hs ⊢
    rw [store] at usable
    exact h.displayed con hs (Cache.usable?_of_drop usable)
  | cleared store machine =>
    refine ⟨store ▸ Cache.failing_drop r s.store ▸ h.readable, fun con hs usable => ?_⟩
    rw [Scene.sync, machine] at hs ⊢
    rw [store] at usable
    exact h.displayed con hs (Cache.usable?_of_drop usable)
  | @interfered store event first =>
    subst first
    rw [event] at allowed
    obtain ⟨readable, same⟩ := allowed
    have text : Cache.text? store r.name = Cache.text? i.before.store r.name := by
      rw [Cache.text?_of_readable readable, Cache.text?_of_readable h.readable, same]
    refine ⟨readable, fun con hs usable => h.displayed con hs ?_⟩
    rwa [Cache.usable?_congr text] at usable

theorem Run.available {policy : Policy} {store : Store} (readable : .get ∉ store.failing)
    (run : Run SoleWriter (Scene.new policy store : Scene r) past s) : Available s := by
  have all : Orderly s ∧ Sourced past s.sync ∧ Available s := by
    refine run.invariant (fun past s => Orderly s ∧ Sourced past s.sync ∧ Available s)
      ⟨.of_new policy store, .pending rfl rfl, readable, fun _ h => nomatch h⟩
      (fun _ i _ ⟨orderly, sourced, h⟩ => ⟨orderly, sourced.mono i, h⟩) ?_
    rintro past i s s' allowed - ⟨orderly, sourced, h⟩ p
    exact ⟨orderly.part p, sourced.part p, h.part allowed orderly sourced p⟩
  exact all.2.2

/-! ## Availability -/

/-- **Availability.** While the synchronizer alone writes under the key of its resource and the
store can be read, a record there that can be read, is for the selected con, and holds a value that
decodes is never hidden by a failure or a pending request. -/
theorem cached_con_available {policy : Policy} {store : Store} {con text : String}
    {e : Envelope r.Stored} {value : r.Live} (readable : .get ∉ store.failing)
    (run : Run SoleWriter (Scene.new policy store : Scene r) past s)
    (selected : s.sync.selected = some con)
    (kept : Cache.record? r s.store = some text)
    (read : (Tree.ofText text).bind (Envelope.ofTree r.storedOfTree) = some e)
    (con_eq : e.con = con) (decoded : r.ofStored e.value = .ok value) :
    s.sync.status = .success := by
  have h := run.available readable
  subst con_eq
  have usable := Cache.usable?_of_record? h.readable kept read decoded
  exact h.displayed e.con selected (by rw [usable]; rfl)

/-- A cached con stays available when its revalidation fails. -/
theorem cached_con_available_after_error :
    let start : Scene .pages := .new .standard { kind := .database }
    let s := start.afterAll
      [.move (.activate "a") [], .move (.answer 0 0 (.success (.array []) (some "v1") false)) [],
        .move .reload [], .move (.answer 1 0 (.error 500)) []]
    (∃ past, Run SoleWriter start past s) ∧ s.sync.selected = some "a" ∧
      (∃ text e value, Cache.record? .pages s.store = some text ∧
        (Tree.ofText text).bind (Envelope.ofTree Resource.pages.storedOfTree) = some e ∧
        e.con = "a" ∧ Resource.pages.ofStored e.value = .ok value) ∧
      s.sync.status = .success := by
  intro start s
  obtain ⟨past, run⟩ : ∃ past, Run SoleWriter start past s :=
    Run.nil.afterAll _ (by simp [Scene.AllowsAll, SoleWriter])
  have selected : s.sync.selected = some "a" := by decide
  have kept : Cache.record? .pages s.store =
      some "\x7b\"instance\":\"a\",\"etag\":\"v1\",\"value\":[]\x7d" := by decide
  have read : (Tree.ofText "\x7b\"instance\":\"a\",\"etag\":\"v1\",\"value\":[]\x7d").bind
      (Envelope.ofTree Resource.pages.storedOfTree) = some ⟨⟨"a", some "v1"⟩, []⟩ := by decide
  exact ⟨⟨past, run⟩, selected, ⟨_, _, _, kept, read, rfl, rfl⟩,
    cached_con_available (by decide) run selected kept read rfl rfl⟩

end OfflineSchedule.Sync
