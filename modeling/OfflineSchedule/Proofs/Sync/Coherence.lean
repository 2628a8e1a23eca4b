import OfflineSchedule.Proofs.Cache.Envelope
import OfflineSchedule.Proofs.Schedule.Live
import OfflineSchedule.Proofs.Sync.Run
/-!
# Coherence with an honest server

A server that answers for what it holds, and tells payloads apart by their etags, determines what is
shown: when a reload ends as updated or as not modified, the payload on display is the one that the
server held when it answered.

A confirmation shows what the store holds when it arrives. The invariant (`Coherent`) therefore
follows the record of the resource: it was made from a payload that the server held, under an etag
that the payload had then, and as long as the latest request carries an etag, the record cannot
have become any other than the one with that etag.
-/

namespace OfflineSchedule.Sync

open Http (Outcome)
open Json (Value)
open Retry (Moment Policy)

variable {r : Resource} {s s' : Scene r} {past : List (Incident r)}

/-! ## Honest servers -/

/-- What a server holds for every con of every resource, as time goes by. -/
structure Origin where
  payload : Resource → String → Moment → Value
  etag : Resource → String → Moment → String
  /-- Payloads of a con that differ have different etags. -/
  payload_eq : ∀ r con t t', etag r con t = etag r con t' → payload r con t = payload r con t'

namespace Origin

variable {w : Origin}

/-- The answers to the request `f` that the server may give at the moment `t`: a confirmation if and
only if the request names the current etag, else the current payload, with its etag or without. -/
inductive Answers (w : Origin) (r : Resource) (t : Moment) (f : Flight) : Outcome Value → Prop where
  | notModified (current : f.etag = some (w.etag r f.con t)) : Answers w r t f .notModified
  | payload {etag : Option String} (changed : f.etag ≠ some (w.etag r f.con t))
      (current : etag = none ∨ etag = some (w.etag r f.con t)) :
      Answers w r t f (.success (w.payload r f.con t) etag false)
  | error (code : Nat) : Answers w r t f (.error code)

/-- Requests are answered by the server, and the record of the resource is left to the
synchronizer. Operations of the store may begin to fail, and no longer fail, at any time. -/
def Honest (w : Origin) (s : Scene r) : Event → Prop
  | .move (.answer ticket _ o) _ => ∀ f, s.Waits ticket f → ∃ t, w.Answers r t f o
  | .move _ _ => True
  | .interference store => Cache.record? r store = Cache.record? r s.store

/-- The stores that earlier runs against the server have left. -/
inductive Leaves (w : Origin) (r : Resource) : Store → Prop where
  | empty {store : Store} (absent : Cache.record? r store = none) : Leaves w r store
  | run {policy : Policy} {store : Store} {past : List (Incident r)} {s : Scene r}
      (left : Leaves w r store) (run : Run w.Honest (.new policy store) past s) : Leaves w r s.store

/-- The record was made from a payload of the con that the server held, under the etag that the
payload had then or under none. -/
def Kept (w : Origin) (r : Resource) (con : String) (etag : Option String) (text : String) : Prop :=
  ∃ value t, text = Cache.recordText r con value etag ∧
    r.liveOfValue (w.payload r con t) = .ok value ∧ ∀ tag, etag = some tag → tag = w.etag r con t

/-- What is made from an answer is such a record. -/
theorem Answers.kept {t : Moment} {f : Flight} {payload : Value} {etag : Option String}
    {stale : Bool} {value : r.Live} (h : w.Answers r t f (.success payload etag stale))
    (decoded : r.liveOfValue payload = .ok value) :
    w.Kept r f.con etag (Cache.recordText r f.con value etag) := by
  cases h with
  | payload _ current =>
    refine ⟨value, t, rfl, decoded, fun tag he => ?_⟩
    rcases current with rfl | rfl
    · cases he
    · exact (Option.some.inj he).symm

/-- The only value that can be got out of such a record is that of the payload. -/
theorem Kept.of_usable? {store : Store} {con con' text : String} {etag etag' : Option String}
    {value : r.Live} (kept : w.Kept r con etag text) (record : Cache.record? r store = some text)
    (usable : Cache.usable? r store con' = some (value, etag')) :
    ∃ t, r.liveOfValue (w.payload r con t) = .ok value ∧
      ∀ tag, etag = some tag → tag = w.etag r con t := by
  obtain ⟨live, t, rfl, decoded, tagged⟩ := kept
  obtain ⟨-, -, again⟩ := Cache.of_usable? record usable
  obtain rfl := Resource.ofStored_of_liveOfValue decoded again
  exact ⟨t, decoded, tagged⟩

/-- The etag that a request carries is that of the record. -/
theorem Kept.of_etag? {store : Store} {con con' text tag : String} {etag : Option String}
    (kept : w.Kept r con etag text) (record : Cache.record? r store = some text)
    (asked : Cache.etag? r store con' = some tag) : w.Kept r con' (some tag) text := by
  obtain ⟨live, t, rfl, decoded, tagged⟩ := kept
  obtain ⟨rfl, rfl⟩ := Cache.of_etag? record asked
  exact ⟨live, t, rfl, decoded, tagged⟩

end Origin

open Origin

/-! ## The invariant -/

structure Coherent (w : Origin) (s : Scene r) : Prop where
  orderly : Orderly s
  /-- The record, if there is one, was made from a payload. -/
  record : ∀ text, Cache.record? r s.store = some text → ∃ con etag, w.Kept r con etag text
  /-- As long as the latest request carries an etag, the record has that etag. -/
  asked : ∀ k f tag text, s.Waits k f → f.number = s.sync.issued → f.etag = some tag →
    Cache.record? r s.store = some text → w.Kept r f.con (some tag) text

namespace Coherent

variable {w : Origin}

/-- While no request is made, the record may go away. -/
theorem of_waits (h : Coherent w s) (orderly : Orderly s')
    (waits : ∀ k f, s'.Waits k f → f.etag.isSome → s.Waits k f)
    (later : s'.sync.issued = s.sync.issued ∨ s.sync.issued < s'.sync.issued)
    (record : Cache.record? r s'.store = Cache.record? r s.store ∨
      Cache.record? r s'.store = none) : Coherent w s' := by
  have same : ∀ text, Cache.record? r s'.store = some text →
      Cache.record? r s.store = some text := by
    intro text ht
    rcases record with hr | hr
    · rwa [hr] at ht
    · simp [hr] at ht
  refine ⟨orderly, fun text ht => h.record text (same text ht), ?_⟩
  intro k f tag text hw hn he ht
  have waited := waits k f hw (by rw [he]; rfl)
  have hle := h.orderly.number_le k f waited
  exact h.asked k f tag text waited (by omega) he (same text ht)

/-- A request carries the etag of the record, and then it is the latest. -/
theorem of_begun {con : String} {ticket : Nat} {faults : List StoreOperation} (h : Coherent w s)
    (orderly : Orderly s') (store : s'.store = s.store) (sync : s'.sync = s.sync.begun con)
    (waits : ∀ k f, s'.Waits k f →
      k = ticket ∧ f = s.sync.request con { s.store with failing := faults } ∨
      k ≠ ticket ∧ s.Waits k f) : Coherent w s' := by
  refine ⟨orderly, fun text ht => h.record text (store ▸ ht), ?_⟩
  intro k f tag text hw hn he ht
  rw [store] at ht
  rcases waits k f hw with ⟨-, rfl⟩ | ⟨-, hw⟩
  · obtain ⟨con', etag, kept⟩ := h.record text ht
    have record : Cache.record? r { s.store with failing := faults } = some text := ht
    exact kept.of_etag? record he
  · have hle := h.orderly.number_le k f hw
    have issued : s'.sync.issued = s.sync.issued + 1 := by rw [sync]; rfl
    omega

/-- An answer brings a payload of the con into the store, or nothing. -/
theorem of_settled {policy : Policy} {now : Moment} {ticket : Nat} {f : Flight} {o : Outcome Value}
    {reload : Reload} (h : Coherent w s) (orderly : Orderly s') (waited : s.Waits ticket f)
    (honest : ∃ t, w.Answers r t f o)
    (settled : Settled policy now f o s.store s.sync reload s'.store s'.sync)
    (waits : ∀ k g, s'.Waits k g → k ≠ ticket ∧ s.Waits k g) : Coherent w s' := by
  have issued := settled.keeps.1
  cases hl : s.sync.isLatest f with
  | false =>
    obtain ⟨-, store, -⟩ := settled.eq_of_late hl
    exact h.of_waits orderly (fun k g hw _ => (waits k g hw).2) (.inl issued)
      (.inl (by rw [store]))
  | true =>
    refine ⟨orderly, fun text ht => ?_, fun k g tag text hw hn _ _ => ?_⟩
    · rcases settled.store_cases with hs | ⟨payload, value, etag, rfl, decoded, hs⟩
      · exact h.record text (hs ▸ ht)
      · rw [hs] at ht
        rcases Cache.record?_keep r s.store f.con value etag with hr | hr
        · exact h.record text (hr ▸ ht)
        · obtain rfl := Option.some.inj (hr.symm.trans ht)
          obtain ⟨t, answers⟩ := honest
          exact ⟨f.con, etag, answers.kept decoded⟩
    · -- The latest request has just been answered, so no other can be the latest.
      obtain ⟨hk, hw⟩ := waits k g hw
      have number : g.number = f.number := by
        rw [isLatest_iff] at hl
        omega
      exact absurd (h.orderly.ticket_unique k ticket g f hw waited number) hk

theorem part {i : Incident r} (h : Coherent w s) (honest : w.Honest i.before i.event)
    (p : Part i s s') : Coherent w s' := by
  have orderly := h.orderly.part p
  cases p with
  | rest store sync waits =>
    obtain ⟨retry, sync⟩ := sync
    exact h.of_waits orderly (fun k f hw _ => waits k f hw) (.inl (by rw [sync]))
      (.inl (by rw [store]))
  | found _ _ _ store sync waits =>
    refine h.of_waits orderly (fun k f hw _ => waits k f hw) (.inr ?_) (.inl (by rw [store]))
    rw [sync]
    exact Nat.lt_succ_self s.sync.issued
  | begun _ _ store sync waits => exact h.of_begun orderly store sync waits
  | @settled _ ticket now o faults f _ event first waited _ settled waits =>
    subst first
    rw [event] at honest
    exact h.of_settled orderly waited (honest f waited) settled waits
  | again _ _ _ _ _ _ store sync waits =>
    refine h.of_waits orderly (fun k g hw he => ?_) (.inl (by rw [sync])) ?_
    · rcases waits k g hw with ⟨-, rfl⟩ | ⟨-, hw⟩
      · cases he
      · exact hw
    · rw [store]
      exact Cache.record?_drop r s.store
  | cleared store machine =>
    refine h.of_waits orderly (fun k f hw _ => ?_) (.inl (by rw [Scene.sync, machine])) ?_
    · rwa [Scene.Waits, machine] at hw
    · rw [store]
      exact Cache.record?_drop r s.store
  | @interfered store event first =>
    subst first
    rw [event] at honest
    exact h.of_waits orderly (fun _ _ hw _ => hw) (.inl rfl) (.inl honest)

end Coherent

variable {w : Origin}

theorem Run.coherent {policy : Policy} {store : Store}
    (record : ∀ text, Cache.record? r store = some text → ∃ con etag, w.Kept r con etag text)
    (run : Run w.Honest (.new policy store) past s) : Coherent w s := by
  refine run.invariant (fun _ s => Coherent w s) ⟨.of_new policy store, record, ?_⟩
    (fun _ _ _ h => h) fun _ _ _ _ honest _ h p => h.part honest p
  intro k f tag text hw
  simp [Scene.Waits, Scene.new, Machine.job?] at hw

/-- In a store that earlier runs have left, the record was made from a payload. -/
theorem Origin.Leaves.record {store : Store} (left : w.Leaves r store) :
    ∀ text, Cache.record? r store = some text → ∃ con etag, w.Kept r con etag text := by
  induction left with
  | empty absent =>
    intro text ht
    simp [absent] at ht
  | run _ run ih => exact (run.coherent ih).record

/-! ## Coherence -/

/-- What counts is on display. -/
theorem current_eq {y : Sync r} {con : String} {p : Published r.Live}
    (selected : y.selected = some con) (owner : y.owner = some con) (published : y.published = p) :
    y.current = p := by
  rw [current, if_pos (owner.trans selected.symm), published]

/-- A confirmation by the server is about the record that is in the store when it arrives. -/
theorem Coherent.confirmed {k : Nat} {t : Moment} {f : Flight} {value : r.Live}
    {etag : Option String} (h : Coherent w s) (waited : s.Waits k f)
    (latest : f.number = s.sync.issued) (answers : w.Answers r t f .notModified)
    (usable : Cache.usable? r s.store f.con = some (value, etag)) :
    r.liveOfValue (w.payload r f.con t) = .ok value := by
  obtain ⟨e, got, -⟩ := Cache.exists_envelope_of_usable? usable
  obtain ⟨text, record⟩ : ∃ text, Cache.record? r s.store = some text := by
    cases ht : Cache.text? s.store r.name with
    | none => simp [Cache.get, ht] at got
    | some text => exact ⟨text, Cache.record?_of_text? ht⟩
  cases answers with
  | notModified current =>
    have kept := h.asked k f (w.etag r f.con t) text waited latest current record
    obtain ⟨t', decoded, tagged⟩ := kept.of_usable? record usable
    rw [w.payload_eq r f.con t t' (tagged _ rfl)]
    exact decoded

/-- **Coherence.** In a run that an honest server answers, and that begins with what earlier such
runs have left in the store, a reload that ends as updated or as not modified leaves on display the
value of the payload that the server held for its con when it answered, whenever that was. -/
theorem displayed_payload_is_held {policy : Policy} {store : Store} {e : Event}
    (left : w.Leaves r store) (run : Run w.Honest (.new policy store) past s)
    (honest : w.Honest s e)
    (ended : s.progress e = .ended (.updated false) ∨ s.progress e = .ended .notModified) :
    ∃ ticket now o faults f, e = .move (.answer ticket now o) faults ∧ s.Waits ticket f ∧
      (∃ t, w.Answers r t f o) ∧ ∀ t, w.Answers r t f o →
        ∃ value etag, r.liveOfValue (w.payload r f.con t) = .ok value ∧
          (s.next e).sync.published = .success value etag ∧
          (s.next e).sync.current = .success value etag := by
  have h := run.coherent left.record
  obtain ⟨reload, ended, counts⟩ : ∃ reload, s.progress e = .ended reload ∧
      (reload = .updated false ∨ reload = .notModified) := by
    rcases ended with he | he
    · exact ⟨_, he, .inl rfl⟩
    · exact ⟨_, he, .inr rfl⟩
  have begun : reload ≠ .noInstance := by rcases counts with rfl | rfl <;> nofun
  obtain ⟨ticket, now, o, faults, f, rfl, waited, settled⟩ := exists_answer_of_ended ended begun
  refine ⟨ticket, now, o, faults, f, rfl, waited, honest f waited, fun t answers => ?_⟩
  generalize s.next (.move (.answer ticket now o) faults) = s' at settled
  generalize hstore : s'.store = store' at settled
  generalize s'.sync = y at settled
  cases settled with
  | superseded => rcases counts with hc | hc <;> cases hc
  | failed => rcases counts with hc | hc <;> cases hc
  | @updated payload value etag stale answer decoded latest =>
    have selected := h.orderly.selected_of_latest ticket f waited (isLatest_iff.1 latest)
    subst answer
    cases answers with
    | payload => exact ⟨value, etag, decoded, rfl, current_eq selected rfl rfl⟩
  | @notModified value etag answer usable latest =>
    have selected := h.orderly.selected_of_latest ticket f waited (isLatest_iff.1 latest)
    subst answer
    have held := h.confirmed waited (isLatest_iff.1 latest) answers usable
    exact ⟨value, etag, held, rfl, current_eq selected rfl rfl⟩

/-- A server whose pages change once, from none to one. -/
def twoEditions : Origin where
  payload _ _ t :=
    if t < 10 then .array []
    else .array [.object [("id", .string "1"), ("slug", .string "map"), ("title", .string "Map")]]
  etag _ _ t := if t < 10 then "v1" else "v2"
  payload_eq := by
    intro r con t t' h
    by_cases ht : t < 10 <;> by_cases ht' : t' < 10 <;> simp [ht, ht'] at h ⊢

/-- The second edition is confirmed after it was kept. -/
theorem confirmed_edition_is_held :
    let second := twoEditions.payload .pages "a" 10
    let start : Scene .pages := .new .standard { kind := .database }
    let s := start.afterAll [.move (.activate "a") [],
      .move (.answer 0 11 (.success second (some "v2") false)) [], .move .reload []]
    let e := Event.move (.answer 1 12 .notModified) []
    twoEditions.Leaves .pages start.store ∧ (∃ past, Run twoEditions.Honest start past s) ∧
      twoEditions.Honest s e ∧ s.progress e = .ended .notModified ∧
      ∃ value etag, Resource.pages.liveOfValue second = .ok value ∧
        (s.next e).sync.current = .success value etag := by
  intro second start s e
  have left : twoEditions.Leaves .pages start.store := .empty rfl
  have first : ∀ f, (start.next (.move (.activate "a") [])).Waits 0 f → f = ⟨"a", 1, none⟩ :=
    fun f hw => (Job.fetching.inj (Option.some.inj hw)).symm
  have later : ∀ f, s.Waits 1 f → f = ⟨"a", 2, some "v2"⟩ := by
    intro f hw
    have waited : s.Waits 1 ⟨"a", 2, some "v2"⟩ := by decide
    exact (Job.fetching.inj (Option.some.inj (waited.symm.trans hw))).symm
  obtain ⟨past, run⟩ : ∃ past, Run twoEditions.Honest start past s := by
    refine Run.nil.afterAll _ ⟨trivial, fun f hw => ⟨10, ?_⟩, trivial, trivial⟩
    rw [first f hw]
    exact .payload nofun (.inr rfl)
  have confirms : twoEditions.Answers .pages 10 ⟨"a", 2, some "v2"⟩ .notModified :=
    .notModified rfl
  have honest : twoEditions.Honest s e := fun f hw => ⟨10, by rw [later f hw]; exact confirms⟩
  have ended : s.progress e = .ended .notModified := by decide
  obtain ⟨ticket, now, o, faults, f, he, waited, -, held⟩ :=
    displayed_payload_is_held left run honest (.inr ended)
  obtain ⟨⟨rfl, -, rfl⟩, -⟩ : (1 = ticket ∧ 12 = now ∧ .notModified = o) ∧ [] = faults := by
    simpa [e] using he
  rw [later f waited] at held
  obtain ⟨value, etag, decoded, -, shown⟩ := held 10 confirms
  exact ⟨left, ⟨past, run⟩, honest, ended, value, etag, decoded, shown⟩

end OfflineSchedule.Sync
