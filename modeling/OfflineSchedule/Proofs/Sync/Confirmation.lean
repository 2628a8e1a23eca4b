import OfflineSchedule.Proofs.Cache.Envelope
import OfflineSchedule.Proofs.Sync.Permanence
import OfflineSchedule.Proofs.Sync.Provenance
/-!
# What a confirmation confirms

A reload looks into the store twice: for the etag to ask about before its request, and for the value
to show after a confirmation has come. In between cons are selected, other reloads make requests and
are answered, and the cache is cleared. Still the two looks agree whenever the confirmation counts:
as long as no later request is made, no answer but the one to this request may write the record, so
that the record is the one that the reload began with, or is of no use any more (`Asked`).

The record has to be one that a synchronizer has written. Of any other text the two looks might
read different things.
-/

namespace OfflineSchedule.Sync

open Http (Outcome)
open Json (Tree Value)
open Retry (Moment Policy)

variable {r : Resource} {s s' : Scene r} {past : List (Incident r)} {policy : Policy}
  {store : Store} {con : String}

/-! ## Written records -/

/-- The record of the resource, if there is one, is what a synchronizer writes. -/
def IsWritten (r : Resource) (store : Store) : Prop :=
  ∀ text, Cache.record? r store = some text →
    ∃ con value etag, text = Cache.recordText r con value etag

theorem IsWritten.of_absent (absent : Cache.record? r store = none) : IsWritten r store :=
  fun text record => by simp [absent] at record

theorem IsWritten.next {e : Event} (h : IsWritten r s.store) (allowed : SoleWriter s e) :
    IsWritten r (s.next e).store := by
  have of_same {store : Store} (same : Cache.record? r store = Cache.record? r s.store) :
      IsWritten r store := fun text ht => h text (same ▸ ht)
  rcases store_after (⟨s, e⟩ : Incident r) with
    ⟨kept, -, -, after⟩ | ⟨-, after | ⟨after, -⟩ | event⟩
  · rw [show (s.next e).store = Cache.keep r s.store kept.con kept.value kept.etag from after]
    rcases Cache.record?_keep r s.store kept.con kept.value kept.etag with same | written
    · exact of_same same
    · intro text ht
      exact ⟨_, _, _, Option.some.inj (ht.symm.trans written)⟩
  · exact of_same (congrArg (Cache.record? r) after)
  · rw [show (s.next e).store = Cache.drop r s.store from after]
    rcases Cache.record?_drop r s.store with same | none
    · exact of_same same
    · intro text ht
      simp [none] at ht
  · have he : e = .interference (s.next e).store := event
    rw [he] at allowed
    exact of_same allowed.2

/-- A run leaves a record as a synchronizer writes it, whatever run it has found one of. -/
theorem Run.isWritten (written : IsWritten r store)
    (run : Run SoleWriter (.new policy store) past s) : IsWritten r s.store := by
  induction run with
  | nil => exact written
  | cons _ allowed ih => exact ih.next allowed

/-- In a written record, the etag that is asked about is that of the value that can be used. -/
theorem IsWritten.etag_eq {value : r.Live} {etag : Option String} (h : IsWritten r store)
    (store' : Store) (usable : Cache.usable? r store con = some (value, etag))
    (same : Cache.record? r store' = Cache.record? r store) (readable : .get ∉ store'.failing) :
    Cache.etag? r store' con = etag := by
  cases record : Cache.record? r store with
  | none => simp [Cache.usable?_of_record?_none record] at usable
  | some text =>
    obtain ⟨con', value', etag', rfl⟩ := h text record
    obtain ⟨rfl, rfl, -⟩ := Cache.of_usable? record usable
    exact Cache.etag?_of_kept readable (same.trans record)

/-! ## The request that is out -/

/-- The event is an answer to a request. -/
def Event.isAnswer : Event → Bool
  | .move (.answer _ _ _) _ => true
  | _ => false

/-- With the request `f` the reload of the ticket has begun, while this was the record of the
resource. -/
def BegunWith (past : List (Incident r)) (ticket : Nat) (f : Flight) (record : Option String) :
    Prop :=
  ∃ i ∈ past, i.event.isAnswer = false ∧ i.progress = .sent ticket f ∧
    Cache.record? r i.before.store = record

/-- What has become of the record that a request asks about. -/
inductive Asked (past : List (Incident r)) (ticket : Nat) (f : Flight) (store : Store) : Prop where
  /-- It is the one that the reload has begun with. -/
  | same (begun : BegunWith past ticket f (Cache.record? r store))
      (etag : ∀ value etag, Cache.usable? r store f.con = some (value, etag) → etag = f.etag)
  | lost (unusable : Cache.usable? r store f.con = none)

namespace Asked

variable {ticket : Nat} {f : Flight}

theorem mono (i : Incident r) (h : Asked past ticket f store) :
    Asked (i :: past) ticket f store := by
  cases h with
  | same begun etag =>
    obtain ⟨j, mem, begun⟩ := begun
    exact .same ⟨j, List.mem_cons_of_mem i mem, begun⟩ etag
  | lost unusable => exact .lost unusable

/-- As long as it can be read, nothing but the record counts. -/
theorem congr {store' : Store} (h : Asked past ticket f store) (readable : .get ∉ store.failing)
    (readable' : .get ∉ store'.failing) (same : Cache.record? r store' = Cache.record? r store) :
    Asked past ticket f store' := by
  have text : Cache.text? store' r.name = Cache.text? store r.name := by
    rw [Cache.text?_of_readable readable', Cache.text?_of_readable readable, same]
  have usable := Cache.usable?_congr text f.con
  cases h with
  | same begun etag => exact .same (same ▸ begun) (usable ▸ etag)
  | lost unusable => exact .lost (usable.trans unusable)

/-- When the record is dropped, it stays as it is or is lost. -/
theorem drop (h : Asked past ticket f store) : Asked past ticket f (Cache.drop r store) := by
  rcases Cache.drop_cases r store with same | erased
  · rwa [same]
  · refine .lost (Cache.usable?_of_record?_none ?_ f.con)
    rw [erased]
    exact Records.find?_erase_self _ _

end Asked

/-- A request has just been made: the reload has begun, or has found nothing to confirm. -/
theorem Asked.of_sent {e : Event} {ticket : Nat} {f : Flight} (written : IsWritten r s.store)
    (readable : .get ∉ s.store.failing) (allowed : SoleWriter s e)
    (sent : s.progress e = .sent ticket f) :
    Asked (⟨s, e⟩ :: past) ticket f (s.next e).store := by
  cases answers : e.isAnswer with
  | true =>
    obtain ⟨k, now, o, faults, rfl⟩ :
        ∃ k now o faults, e = .move (.answer k now o) faults := by
      unfold Event.isAnswer at answers
      split at answers
      · exact ⟨_, _, _, _, rfl⟩
      · cases answers
    rcases waits_or_idle s k with ⟨g, waited⟩ | idle
    · rcases next_answer waited now o faults with
        ⟨reload, ended, -⟩ | ⟨again, -, unusable, dropped, -⟩
      · exact nomatch ended.symm.trans sent
      · obtain ⟨-, rfl⟩ := Progress.sent.inj (again.symm.trans sent)
        rw [dropped]
        exact .lost (Cache.usable?_drop_of_none unusable)
    · rw [Scene.progress, perform_answer_idle idle] at sent
      cases sent
  | false =>
    rcases sent_cases sent with ⟨faults, why, told, same⟩ | ⟨-, k, now, faults, rfl⟩
    · rw [same]
      refine .same ⟨⟨s, e⟩, List.mem_cons_self, answers, sent, rfl⟩ fun value etag usable => ?_
      have readable' : .get ∉ faults := by
        rcases why with rfl | ⟨m, rfl⟩
        · exact readable
        · exact allowed
      rw [told]
      exact (written.etag_eq { s.store with failing := faults } usable rfl readable').symm
    · cases answers

/-- While a request is out and the latest one, nobody writes the record. -/
theorem Asked.next {e : Event} {ticket : Nat} {f : Flight} (h : Asked past ticket f s.store)
    (orderly : Orderly s) (readable : .get ∉ s.store.failing) (allowed : SoleWriter s e)
    (waited : s.Waits ticket f) (waits : (s.next e).Waits ticket f)
    (latest : f.number = s.sync.issued) : Asked (⟨s, e⟩ :: past) ticket f (s.next e).store := by
  have h := h.mono ⟨s, e⟩
  rcases store_after (⟨s, e⟩ : Incident r) with
    ⟨kept, some, -, -⟩ | ⟨-, after | ⟨after, -⟩ | event⟩
  · -- Only the answer to the latest request is kept, and that ends the reload of the ticket.
    exfalso
    have ended : s.progress e = .ended (.updated false) := by
      refine Decidable.by_contra fun other => ?_
      simp [kept?_of_progress (i := ⟨s, e⟩) other] at some
    obtain ⟨k, now, o, faults, g, rfl, waited', settled⟩ := exists_answer_of_ended ended (by nofun)
    obtain ⟨-, -, -, -, -, latest', -⟩ := settled.of_updated
    have number : f.number = g.number := latest.trans (isLatest_iff.1 latest').symm
    obtain rfl := orderly.ticket_unique ticket k f g waited waited' number
    exact nomatch ended.symm.trans ((waits_answered waited' now o faults f).1 waits)
  · rwa [show (s.next e).store = s.store from after]
  · rw [show (s.next e).store = Cache.drop r s.store from after]
    exact h.drop
  · have he : e = .interference (s.next e).store := event
    rw [he] at allowed
    exact h.congr readable allowed.1 allowed.2

/-- The latest request asks about the record as it is, unless that is of no use. -/
theorem Run.asked (readable : .get ∉ store.failing) (written : IsWritten r store)
    (run : Run SoleWriter (.new policy store) past s) {ticket : Nat} {f : Flight}
    (waits : s.Waits ticket f) (latest : f.number = s.sync.issued) :
    Asked past ticket f s.store := by
  induction run with
  | nil => simp [Scene.Waits, Scene.new, Machine.job?] at waits
  | @cons past s e run allowed ih =>
    have reads := (run.available readable).readable
    rcases waits_next waits with sent | waited
    · exact .of_sent (run.isWritten written) reads allowed sent
    · have earlier := run.orderly.number_le ticket f waited
      have later := issued_le_next s e
      have latest : f.number = s.sync.issued := by omega
      exact (ih waited latest).next run.orderly reads allowed waited waits latest

/-! ## Confirmations -/

/-- A reload that ends as not modified shows what the store has for the con of its request. -/
theorem Settled.of_notModified {now : Moment} {f : Flight} {o : Outcome Value} {store' : Store}
    {y y' : Sync r} (h : Settled policy now f o store y .notModified store' y') :
    ∃ value etag, o = .notModified ∧ Cache.usable? r store f.con = some (value, etag) ∧
      y.isLatest f = true ∧ store' = store ∧ y' = y.confirm f value etag := by
  cases h with
  | notModified answer usable latest => exact ⟨_, _, answer, usable, latest, rfl, rfl⟩

/-- The con stays, the cache is left alone, and an answer confirms what is cached or comes too
late. -/
def Confirming (con : String) (s : Scene r) (e : Event) : Prop :=
  match e with
  | .interference _ | .move .clear _ => False
  | .move (.answer _ _ _) _ =>
    s.progress e = .ended .notModified ∨ s.progress e = .ended .superseded
  | _ => e.StaysWith con

/-- The value on display is the one that the store has for the con. -/
structure Confirmed (con : String) (value : r.Live) (etag : Option String) (s : Scene r) : Prop
    extends Displays con s where
  published : s.sync.published = .success value etag
  usable : Cache.usable? r s.store con = some (value, etag)

theorem Confirmed.current {value : r.Live} {etag : Option String}
    (h : Confirmed con value etag s) : s.sync.current = .success value etag := by
  rw [← h.published]
  exact if_pos (status_eq_success.1 h.success).1

/-- A confirmation of what is on display already changes nothing. -/
theorem Confirmed.next {value : r.Live} {etag : Option String} {e : Event}
    (h : Confirmed con value etag s) (allowed : Confirming con s e) :
    Confirmed con value etag (s.next e) ∧ (s.next e).store = s.store := by
  have of_bare (stays : e.StaysWith con) (bare : (s.progress e).Bare)
      (store : (s.next e).store = s.store) :
      Confirmed con value etag (s.next e) ∧ (s.next e).store = s.store := by
    obtain ⟨displays, lasting⟩ := h.toDisplays.next stays
    exact ⟨⟨displays, (lasting.published bare).trans h.published, store ▸ h.usable⟩, store⟩
  have of_ended {reload : Reload} (ended : s.progress e = .ended reload)
      (why : reload = .notModified ∨ reload = .superseded) :
      Confirmed con value etag (s.next e) ∧ (s.next e).store = s.store := by
    have begun : reload ≠ .noInstance := by rcases why with rfl | rfl <;> nofun
    obtain ⟨k, now, o, faults, f, rfl, waited, settled⟩ := exists_answer_of_ended ended begun
    have stays : Event.StaysWith con (.move (.answer k now o) faults) :=
      staysWith_of_ended ended begun
    rcases why with rfl | rfl
    · obtain ⟨value', etag', -, usable, latest, store, sync⟩ := settled.of_notModified
      have selected := h.orderly.selected_of_latest k f waited (isLatest_iff.1 latest)
      obtain rfl : f.con = con := Option.some.inj (selected.symm.trans h.selected)
      obtain ⟨rfl, rfl⟩ := Prod.mk.inj (Option.some.inj (h.usable.symm.trans usable))
      refine ⟨⟨(h.toDisplays.next stays).1, ?_, store ▸ h.usable⟩, store⟩
      rw [sync]
      rfl
    · refine of_bare stays (fun reload ended' => ?_) (settled.store_of_ne nofun)
      cases ended'.symm.trans ended
      rfl
  cases e with
  | interference store => exact allowed.elim
  | move m faults =>
    cases m with
    | clear => exact allowed.elim
    | answer k now o =>
      rcases allowed with ended | ended
      · exact of_ended ended (.inl rfl)
      · exact of_ended ended (.inr rfl)
    | _ =>
      refine of_bare allowed (fun reload ended => ?_) rfl
      by_cases begun : reload = .noInstance
      · rw [begun]
        rfl
      · obtain ⟨k, now, o, faults', f, same, -⟩ := exists_answer_of_ended ended begun
        cases same

theorem Run.confirmed {value : r.Live} {etag : Option String} {past : List (Incident r)}
    (h : Confirmed con value etag s) (run : Run (Confirming con) s past s') :
    Confirmed con value etag s' ∧ s'.store = s.store := by
  induction run with
  | nil => exact ⟨h, rfl⟩
  | cons _ allowed ih =>
    obtain ⟨confirmed, store⟩ := ih.1.next allowed
    exact ⟨confirmed, store.trans ih.2⟩

/-- **Confirmation.** Reads do not fail, and what record there is was written by a synchronizer.
When a reload for a con ends as not modified, the envelope in the store is the one that the reload
has begun with and is of that con, the request was made under its etag, and its value is published
with this etag, while the store stays as it is. After that, store and published state stay as they
are however often the con is confirmed again. -/
theorem confirmation_is_of_record_asked_about (readable : .get ∉ store.failing)
    (written : IsWritten r store) (run : Run SoleWriter (.new policy store) past s) {e : Event}
    (ended : s.progress e = .ended .notModified) :
    ∃ ticket now faults f text envelope value,
      e = .move (.answer ticket now .notModified) faults ∧ s.Waits ticket f ∧
      BegunWith past ticket f (some text) ∧
      Cache.record? r (s.next e).store = some text ∧ (s.next e).store = s.store ∧
      (Tree.ofText text).bind (Envelope.ofTree r.storedOfTree) = some envelope ∧
      envelope.con = f.con ∧ envelope.etag = f.etag ∧ r.ofStored envelope.value = .ok value ∧
      (s.next e).sync.selected = some f.con ∧
      (s.next e).sync.published = .success value f.etag ∧
      (s.next e).sync.current = .success value f.etag ∧
      ∀ later s', Run (Confirming f.con) (s.next e) later s' →
        s'.store = s.store ∧ s'.sync.published = .success value f.etag ∧
        s'.sync.current = .success value f.etag := by
  obtain ⟨ticket, now, o, faults, f, rfl, waited, settled⟩ := exists_answer_of_ended ended nofun
  obtain ⟨value, etag, rfl, usable, latest, store_eq, sync⟩ := settled.of_notModified
  have after := (run.mono fun _ _ _ => trivial : Run (fun _ _ => True) _ past s).cons
    (e := .move (.answer ticket now .notModified) faults) trivial
  generalize s.next _ = next at *
  have number := isLatest_iff.1 latest
  have selected : next.sync.selected = some f.con :=
    settled.keeps.2.trans (run.orderly.selected_of_latest ticket f waited number)
  -- The record is of use, so it is the one that the reload has begun with.
  obtain ⟨begun, etag_eq⟩ : BegunWith past ticket f (Cache.record? r s.store) ∧
      ∀ value etag, Cache.usable? r s.store f.con = some (value, etag) → etag = f.etag := by
    cases run.asked readable written waited number with
    | same begun etag => exact ⟨begun, etag⟩
    | lost unusable => exact nomatch usable.symm.trans unusable
  obtain rfl := etag_eq value etag usable
  obtain ⟨envelope, got, con_eq, tag, decoded⟩ := Cache.exists_envelope_of_usable? usable
  obtain ⟨text, -, record, read⟩ := Cache.exists_record_of_get got
  have confirmed : Confirmed f.con value f.etag next := by
    have published : next.sync.published = .success value f.etag := by
      rw [sync]
      rfl
    have owner : next.sync.owner = some f.con := by
      rw [sync]
      rfl
    exact ⟨⟨after.orderly, ⟨_, after.sourced⟩, selected, status_display selected owner published⟩,
      published, store_eq ▸ usable⟩
  refine ⟨ticket, now, faults, f, text, envelope, value, rfl, waited, record ▸ begun,
    store_eq ▸ record, store_eq, read, con_eq, tag, decoded, selected, confirmed.published,
    confirmed.current, fun later s' run => ?_⟩
  obtain ⟨confirmed', store⟩ := run.confirmed confirmed
  exact ⟨store.trans store_eq, confirmed'.published, confirmed'.current⟩

/-- A synchronizer that begins with the record of an earlier one asks twice about it. The first
confirmation comes too late, the second one counts, and another one changes nothing. -/
theorem confirmation_is_of_record_of_earlier_run :
    let earlier : Scene .pages := Scene.afterAll
      [.move (.activate "a") [], .move (.answer 0 0 (.success (.array []) (some "v1") false)) []]
      (.new .standard { kind := .database })
    let start : Scene .pages := .new .standard earlier.store
    let s := start.afterAll [.move (.activate "a") [], .move (.start 0) [], .move .reload [],
      .move (.answer 0 0 .notModified) []]
    let e := Event.move (.answer 1 0 .notModified) []
    let s' := (s.next e).afterAll [.move .reload [], .move (.answer 2 0 .notModified) []]
    .get ∉ earlier.store.failing ∧ IsWritten .pages earlier.store ∧
      s.progress e = .ended .notModified ∧ ∃ past, Run SoleWriter start past s ∧
      ∃ f value, BegunWith past 1 f (Cache.record? .pages s.store) ∧
        (s.next e).sync.published = .success value f.etag ∧
        s'.store = s.store ∧ s'.sync.published = .success value f.etag := by
  intro earlier start s e s'
  have readable : .get ∉ earlier.store.failing := by decide
  have written : IsWritten .pages earlier.store := by
    obtain ⟨past, run⟩ : ∃ past,
        Run SoleWriter (.new .standard { kind := .database }) past earlier :=
      Run.nil.afterAll _ (by simp [Scene.AllowsAll, SoleWriter])
    exact run.isWritten (.of_absent rfl)
  have ended : s.progress e = .ended .notModified := by decide
  obtain ⟨past, run⟩ : ∃ past, Run SoleWriter start past s :=
    Run.nil.afterAll _ (by simp [Scene.AllowsAll, SoleWriter])
  obtain ⟨ticket, now, faults, f, text, envelope, value, he, -, begun, record, store, -, con, -, -,
    selected, published, -, again⟩ :=
    confirmation_is_of_record_asked_about readable written run ended
  obtain ⟨⟨rfl, -⟩, -⟩ : (1 = ticket ∧ 0 = now) ∧ faults = [] := by simpa [e] using he
  have hcon : f.con = "a" :=
    Option.some.inj (selected.symm.trans (by decide : (s.next e).sync.selected = some "a"))
  obtain ⟨later, run'⟩ : ∃ later, Run (Confirming f.con) (s.next e) later s' :=
    Run.nil.afterAll _ ⟨by rintro other ⟨⟩, .inl (by decide), trivial⟩
  obtain ⟨store', published', -⟩ := again later s' run'
  exact ⟨readable, written, ended, past, run, f, value, store ▸ record.symm ▸ begun, published,
    store', published'⟩

end OfflineSchedule.Sync
