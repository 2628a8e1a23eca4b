import OfflineSchedule.Proofs.Cache.Envelope
import OfflineSchedule.Proofs.Sync.Isolation
/-!
# Where the record comes from

In a run that begins without a record of the resource, and in which nobody else writes one, the
history tells what the record is: the envelope of the value that was kept last (`lastKept?`). A
value is kept only together with the con of the request and the etag of the answer that brought it,
so an etag is never sent for another con, and never one that came with something that was not kept.
-/

namespace OfflineSchedule.Sync

open Http (Outcome)
open Json (Tree Value)
open Retry (Moment Policy)

variable {r : Resource} {s : Scene r} {past : List (Incident r)}

/-! ## What was kept last -/

/-- What an incident brings: the value of an answer that is not stale, decodes and counts, under the
con that was asked for and the etag of the answer. -/
def Incident.fresh? (i : Incident r) : Option (Envelope r.Live) :=
  match i.event with
  | .move (.answer ticket _ (.success payload etag false)) _ =>
    match i.before.machine.job? ticket, r.liveOfValue payload with
    | some (.fetching f), .ok value =>
      if i.progress = .ended (.updated false) then some ⟨⟨f.con, etag⟩, value⟩ else none
    | _, _ => none
  | _ => none

/-- What an incident keeps: what it brings, if the envelope of that reaches the store. -/
def Incident.kept? (i : Incident r) : Option (Envelope r.Live) :=
  i.fresh?.filter fun e => Cache.reaches r i.before.store e.con e.value e.etag

def Event.isClear : Event → Bool
  | .move .clear _ => true
  | _ => false

/-- The incident clears the cache, and the record can be removed. -/
def Incident.clears (i : Incident r) : Bool :=
  i.event.isClear && .remove ∉ i.before.store.failing

/-- What was kept last, unless the cache was cleared since. -/
def lastKept? : List (Incident r) → Option (Envelope r.Live)
  | [] => none
  | i :: past => if i.clears then none else i.kept?.or (lastKept? past)

/-- Once the cache was cleared, nothing is kept until something is. -/
theorem lastKept?_of_cleared {later earlier : List (Incident r)} {i : Incident r}
    (cleared : i.clears = true) (since : ∀ j ∈ later, j.kept? = none) :
    lastKept? (later ++ i :: earlier) = none := by
  induction later with
  | nil => simp [lastKept?, cleared]
  | cons j later ih =>
    have rest := ih fun j' hj => since j' (List.mem_cons_of_mem j hj)
    simp [lastKept?, since j List.mem_cons_self, rest]

/-- What is brought was the answer to a request for its con. -/
theorem answered_of_fresh? {i : Incident r} {e : Envelope r.Live} (mem : i ∈ past)
    (h : i.fresh? = some e) : ∃ f payload, f.con = e.con ∧ r.liveOfValue payload = .ok e.value ∧
      Answered past f (.success payload e.etag false) (.updated false) := by
  unfold Incident.fresh? at h
  split at h
  · rename_i ticket now payload etag faults event
    split at h
    · rename_i f value waited decoded
      obtain ⟨progress, he⟩ := Option.ite_none_right_eq_some.1 h
      cases he
      exact ⟨f, payload, rfl, decoded, .of_mem mem event waited progress⟩
    · cases h
  · cases h

/-- So was what is kept. -/
theorem answered_of_kept? {i : Incident r} {e : Envelope r.Live} (mem : i ∈ past)
    (h : i.kept? = some e) : ∃ f payload, f.con = e.con ∧ r.liveOfValue payload = .ok e.value ∧
      Answered past f (.success payload e.etag false) (.updated false) :=
  answered_of_fresh? mem (Option.filter_eq_some_iff.1 h).1

theorem answered_of_lastKept? {e : Envelope r.Live} (h : lastKept? past = some e) :
    ∃ f payload, f.con = e.con ∧ r.liveOfValue payload = .ok e.value ∧
      Answered past f (.success payload e.etag false) (.updated false) := by
  induction past with
  | nil => cases h
  | cons i past ih =>
    simp only [lastKept?] at h
    split at h
    · cases h
    · rcases Option.or_eq_some_iff.1 h with kept | ⟨-, earlier⟩
      · exact answered_of_kept? List.mem_cons_self kept
      · obtain ⟨f, payload, hc, decoded, answered⟩ := ih earlier
        exact ⟨f, payload, hc, decoded, answered.mono i⟩

/-! ## What an incident does to the store -/

theorem fresh?_of_progress {i : Incident r} (h : i.progress ≠ .ended (.updated false)) :
    i.fresh? = none := by
  unfold Incident.fresh?
  split
  · split
    · exact if_neg h
    · rfl
  · rfl

theorem kept?_of_brought {i : Incident r} {e : Envelope r.Live} (brought : i.fresh? = some e) :
    i.kept? = if Cache.reaches r i.before.store e.con e.value e.etag then some e else none := by
  rw [Incident.kept?, brought, Option.filter_some]

theorem kept?_of_progress {i : Incident r} (h : i.progress ≠ .ended (.updated false)) :
    i.kept? = none := by
  rw [Incident.kept?, fresh?_of_progress h, Option.filter_none]

/-- Why a record is dropped: the cache is cleared, or a confirmation confirms nothing. -/
def Incident.Drops (i : Incident r) : Prop :=
  i.event.isClear = true ∨ ∃ ticket f, i.before.Waits ticket f ∧ f.etag.isSome = true ∧
    Cache.usable? r i.before.store f.con = none

/-- The value of an answer is kept if it is fresh, counts and reaches the store. -/
theorem store_after_answer {ticket : Nat} {f : Flight} (waited : s.Waits ticket f) (now : Moment)
    (o : Outcome Value) (faults : List StoreOperation) :
    let i : Incident r := ⟨s, .move (.answer ticket now o) faults⟩
    (∃ e, i.kept? = some e ∧ Cache.reaches r s.store e.con e.value e.etag = true ∧
      i.after.store = Cache.keep r s.store e.con e.value e.etag) ∨
    i.kept? = none ∧ (i.after.store = s.store ∨
      i.after.store = Cache.drop r s.store ∧ i.Drops ∨ i.event = .interference i.after.store) := by
  intro i
  rcases next_answer waited now o faults with
    ⟨reload, ended, settled⟩ | ⟨sent, -, -, dropped, -⟩
  · have progress : i.progress = .ended reload := ended
    by_cases fresh : reload = .updated false
    · subst fresh
      obtain ⟨payload, value, etag, rfl, decoded, -, after, -⟩ := settled.of_updated
      have job : i.before.machine.job? ticket = some (.fetching f) := waited
      have brought : i.fresh? = some ⟨⟨f.con, etag⟩, value⟩ := by
        simp [Incident.fresh?, i, job, decoded, progress]
      have kept := kept?_of_brought brought
      cases reaches : Cache.reaches r s.store f.con value etag with
      | true => exact .inl ⟨_, kept.trans (if_pos reaches), reaches, after⟩
      | false =>
        have unkept : i.kept? = none := kept.trans (if_neg (by rw [reaches]; decide))
        exact .inr ⟨unkept, .inl (after.trans (Cache.keep_of_not_reaches reaches))⟩
    · have none : i.kept? = none := kept?_of_progress (by rw [progress]; simpa using fresh)
      exact .inr ⟨none, .inl (settled.store_of_ne fresh)⟩
  · have again : i.progress = .sent ticket { f with etag := none } := sent
    have drops : i.Drops := .inr ⟨ticket, f, waited, asked_of_again waited sent⟩
    exact .inr ⟨kept?_of_progress (by simp [again]), .inr (.inl ⟨dropped, drops⟩)⟩

/-- An incident keeps a value, or it leaves the record as it is, drops it, or is none of the
synchronizer's business. -/
theorem store_after (i : Incident r) :
    (∃ e, i.kept? = some e ∧ Cache.reaches r i.before.store e.con e.value e.etag = true ∧
      i.after.store = Cache.keep r i.before.store e.con e.value e.etag) ∨
    i.kept? = none ∧ (i.after.store = i.before.store ∨
      i.after.store = Cache.drop r i.before.store ∧ i.Drops ∨
      i.event = .interference i.after.store) := by
  obtain ⟨s, e⟩ := i
  cases e with
  | interference store => exact .inr ⟨rfl, .inr (.inr rfl)⟩
  | move e faults =>
    cases e with
    | clear => exact .inr ⟨rfl, .inr (.inl ⟨rfl, .inl rfl⟩)⟩
    | answer ticket now o =>
      rcases waits_or_idle s ticket with ⟨f, waited⟩ | idle
      · exact store_after_answer waited now o faults
      · have idle := perform_answer_idle idle now o faults
        refine .inr ⟨kept?_of_progress ?_, .inl ?_⟩
        · simp [Incident.progress, Scene.progress, idle]
        · simp [Incident.after, Scene.next, idle]
    | _ => exact .inr ⟨rfl, .inl rfl⟩

theorem record?_of_clears {i : Incident r} (h : i.clears = true) :
    Cache.record? r i.after.store = none := by
  obtain ⟨s, e⟩ := i
  obtain ⟨clear, removable⟩ := (Bool.and_eq_true _ _).mp h
  unfold Event.isClear at clear
  split at clear
  · rename_i he
    obtain rfl : e = _ := he
    exact Cache.record?_drop_of_removable (of_decide_eq_true removable)
  · cases clear

/-! ## The invariant -/

/-- The record is left to the synchronizer, and the store stays of one kind. Operations of it may
begin to fail, and no longer fail, at any time. -/
def Reserved (s : Scene r) : Event → Prop
  | .move _ _ => True
  | .interference store =>
    store.kind = s.store.kind ∧ Cache.record? r store = Cache.record? r s.store

/-- The history tells what the record is. -/
structure Tracked (past : List (Incident r)) (s : Scene r) : Prop where
  record : ∀ text, Cache.record? r s.store = some text → ∃ e, lastKept? past = some e ∧
    text = Cache.recordText r e.con e.value e.etag
  disabled : s.store.kind = .disabled → Cache.record? r s.store = none

namespace Tracked

theorem of_absent {s : Scene r} (absent : Cache.record? r s.store = none) : Tracked past s :=
  ⟨fun text h => by simp [absent] at h, fun _ => absent⟩

/-- An incident that keeps nothing leaves the record or removes it. -/
theorem of_unkept {e : Event} (h : Tracked past s) (clears : (⟨s, e⟩ : Incident r).clears = false)
    (unkept : (⟨s, e⟩ : Incident r).kept? = none) (kind : (s.next e).store.kind = s.store.kind)
    (record : Cache.record? r (s.next e).store = Cache.record? r s.store ∨
      Cache.record? r (s.next e).store = none) : Tracked (⟨s, e⟩ :: past) (s.next e) := by
  rcases record with same | absent
  · refine ⟨fun text ht => ?_, fun disabled => ?_⟩
    · rw [same] at ht
      obtain ⟨last, hl, rfl⟩ := h.record text ht
      exact ⟨last, by simp [lastKept?, clears, unkept, hl], rfl⟩
    · rw [same]
      exact h.disabled (kind ▸ disabled)
  · exact of_absent absent

theorem next {e : Event} (h : Tracked past s) (allowed : Reserved s e) :
    Tracked (⟨s, e⟩ :: past) (s.next e) := by
  cases clears : (⟨s, e⟩ : Incident r).clears with
  | true => exact of_absent (record?_of_clears clears)
  | false =>
    rcases store_after (⟨s, e⟩ : Incident r) with
      ⟨kept, hk, reaches, after⟩ | ⟨unkept, after | ⟨after, -⟩ | event⟩
    · have store : (s.next e).store = Cache.keep r s.store kept.con kept.value kept.etag := after
      by_cases kind : s.store.kind = .disabled
      · refine of_absent ?_
        rw [store, Cache.keep_of_disabled kind]
        exact h.disabled kind
      · refine ⟨fun text ht => ⟨kept, by simp [lastKept?, clears, hk], ?_⟩, fun disabled => ?_⟩
        · rw [store, Cache.record?_keep_of_reaches reaches kind] at ht
          exact (Option.some.inj ht).symm
        · rw [store, Cache.kind_keep] at disabled
          exact absurd disabled kind
    · have store : (s.next e).store = s.store := after
      exact h.of_unkept clears unkept (by rw [store]) (.inl (by rw [store]))
    · have store : (s.next e).store = Cache.drop r s.store := after
      refine h.of_unkept clears unkept (by rw [store, Cache.kind_drop]) ?_
      rw [store]
      exact Cache.record?_drop r s.store
    · have he : e = .interference (s.next e).store := event
      rw [he] at allowed
      exact h.of_unkept clears unkept allowed.1 (.inl allowed.2)

end Tracked

theorem Run.tracked {policy : Policy} {store : Store} (absent : Cache.record? r store = none)
    (run : Run Reserved (.new policy store) past s) : Tracked past s := by
  induction run with
  | nil => exact .of_absent absent
  | cons _ allowed ih => exact ih.next allowed

/-! ## Provenance -/

/-- A record that was made from a value is read as the envelope of that value. -/
theorem read_recordText (e : Envelope r.Live) :
    (Tree.ofText (Cache.recordText r e.con e.value e.etag)).bind
      (Envelope.ofTree r.storedOfTree) = some ⟨e.toHeader, r.toStored e.value⟩ := by
  have textual := Envelope.isTextual_toValue r.isTextual_storedToValue
    (⟨e.toHeader, r.toStored e.value⟩ : Envelope r.Stored)
  have written := Envelope.ofTree_written r.storedOfTree_written
    (⟨e.toHeader, r.toStored e.value⟩ : Envelope r.Stored)
  rw [Cache.recordText, Json.ofText_render textual]
  exact written

/-- The etag under which a request is made was kept last, for the same con. -/
theorem Tracked.sent (h : Tracked past s) {e : Event} {k : Nat} {f : Flight} {tag : String}
    (sent : s.progress e = .sent k f) (asked : f.etag = some tag) :
    ∃ kept, lastKept? past = some kept ∧ kept.con = f.con ∧ kept.etag = some tag := by
  rcases sent_cases sent with ⟨faults, -, etag, -⟩ | ⟨etag, -⟩
  · rw [asked] at etag
    cases ht : Cache.record? r s.store with
    | none =>
      have absent : Cache.record? r { s.store with failing := faults } = none := ht
      rw [Cache.etag?_of_record?_none absent] at etag
      cases etag
    | some text =>
      obtain ⟨kept, hl, rfl⟩ := h.record text ht
      obtain ⟨con, tagged⟩ :=
        Cache.of_etag? (s := { s.store with failing := faults }) ht etag.symm
      exact ⟨kept, hl, con.symm, tagged⟩
  · rw [asked] at etag
    cases etag

/-- **Provenance.** In a run that begins without a record of the resource, the record is at every
moment, if there is one, the envelope of what was kept last, which is con, etag and value of one
fresh answer that counted. A request under an etag is made for the con of that answer and under its
etag, and after the cache was cleared no request is made under an etag until something was kept. -/
theorem record_is_last_kept {policy : Policy} {store : Store}
    (absent : Cache.record? r store = none) (run : Run Reserved (.new policy store) past s) :
    (∀ text, Cache.record? r s.store = some text → ∃ kept, lastKept? past = some kept ∧
      text = Cache.recordText r kept.con kept.value kept.etag ∧
      (Tree.ofText text).bind (Envelope.ofTree r.storedOfTree) =
        some ⟨⟨kept.con, kept.etag⟩, r.toStored kept.value⟩) ∧
    (∀ kept, lastKept? past = some kept → ∃ f payload, f.con = kept.con ∧
      r.liveOfValue payload = .ok kept.value ∧
      Answered past f (.success payload kept.etag false) (.updated false)) ∧
    (∀ e k f tag, s.progress e = .sent k f → f.etag = some tag →
      ∃ kept, lastKept? past = some kept ∧ kept.con = f.con ∧ kept.etag = some tag) ∧
    ∀ later i earlier, past = later ++ i :: earlier → i.clears = true →
      (∀ j ∈ later, j.kept? = none) → ∀ e k f, s.progress e = .sent k f → f.etag = none := by
  have h := run.tracked absent
  refine ⟨fun text ht => ?_, fun kept => answered_of_lastKept?, fun e k f tag => h.sent, ?_⟩
  · obtain ⟨kept, hl, rfl⟩ := h.record text ht
    exact ⟨kept, hl, rfl, read_recordText kept⟩
  · rintro later i earlier rfl cleared since e k f sent
    cases asked : f.etag with
    | none => rfl
    | some tag =>
      obtain ⟨kept, hl, -⟩ := h.sent sent asked
      rw [lastKept?_of_cleared cleared since] at hl
      cases hl

/-- What was kept of a con is asked about under its etag. -/
theorem kept_con_is_asked_about :
    let start : Scene .pages := .new .standard { kind := .database }
    let s := start.afterAll
      [.move (.activate "a") [], .move (.answer 0 0 (.success (.array []) (some "v1") false)) []]
    let f : Flight := ⟨"a", 2, some "v1"⟩
    Cache.record? .pages start.store = none ∧ s.progress (.move .reload []) = .sent 1 f ∧
      ∃ past, Run Reserved start past s ∧
        ∃ kept, lastKept? past = some kept ∧ kept.con = f.con ∧ kept.etag = some "v1" := by
  intro start s f
  have absent : Cache.record? .pages start.store = none := rfl
  have sent : s.progress (.move .reload []) = .sent 1 f := by decide
  obtain ⟨past, run⟩ : ∃ past, Run Reserved start past s :=
    Run.nil.afterAll _ ⟨trivial, trivial, trivial⟩
  obtain ⟨-, -, asked, -⟩ := record_is_last_kept absent run
  exact ⟨absent, sent, past, run, asked _ 1 f "v1" sent rfl⟩

end OfflineSchedule.Sync
