import OfflineSchedule.Proofs.Schedule.Live
import OfflineSchedule.Proofs.Sync.Activation
import OfflineSchedule.Proofs.Sync.Provenance
/-!
# A con that is activated again

As long as a con is selected, to activate it again leaves its value on display. After another con
was selected the store is asked first, and what it has is shown, even though a value of the con is
still on display. The two are the same unless the value on display is one that an answer brought and
the store did not get: a stale one, or one that could not be kept. Then the record is from before
that answer, and the older value comes back.

The invariant (`Backed`) is about the record and not about what can be read of it at the moment, as
reads may fail for a while.
-/

namespace OfflineSchedule

/-- What the record has for a con, whether or not it can be got at the moment. -/
def Cache.recorded? (r : Resource) (store : Store) (con : String) :
    Option (r.Live × Option String) :=
  usable? r { store with failing := [] } con

namespace Sync

open Http (Outcome)
open Json (Value)
open Retry (Policy)

variable {r : Resource} {s s' : Scene r} {past : List (Incident r)} {policy : Policy}
  {store : Store} {con : String}

/-! ## What the record has -/

theorem recorded?_congr {store' : Store} (same : Cache.record? r store' = Cache.record? r store)
    (con : String) : Cache.recorded? r store' con = Cache.recorded? r store con := by
  refine Cache.usable?_congr ?_ con
  rw [Cache.text?_of_readable (s := { store' with failing := [] }) (by simp),
    Cache.text?_of_readable (s := { store with failing := [] }) (by simp)]
  exact same

theorem recorded?_of_usable? {p : r.Live × Option String}
    (usable : Cache.usable? r store con = some p) : Cache.recorded? r store con = some p := by
  obtain ⟨text, e, readable, kept, read, con_eq, etag_eq, decoded⟩ :=
    Cache.usable?_eq_some_iff.1 usable
  exact Cache.usable?_eq_some_iff.2
    ⟨text, e, by simp, kept, read, con_eq, etag_eq, decoded⟩

theorem recorded?_drop {p : r.Live × Option String}
    (recorded : Cache.recorded? r (Cache.drop r store) con = some p) :
    Cache.recorded? r store con = some p := by
  rcases Cache.record?_drop r store with same | absent
  · rwa [recorded?_congr same] at recorded
  · rw [Cache.recorded?, Cache.usable?_of_record?_none (s := { Cache.drop r store with
      failing := [] }) absent] at recorded
    cases recorded

/-! ## Values that are not in the store -/

/-- The incident is an answer that has brought the value of a con on display, and the store did not
get it: it was stale, or could not be kept. -/
def Incident.Unsaved (i : Incident r) (con : String) (value : r.Live) (etag : Option String) :
    Prop :=
  ∃ ticket now payload stale faults f,
    i.event = .move (.answer ticket now (.success payload etag stale)) faults ∧
    i.before.Waits ticket f ∧ f.con = con ∧ r.liveOfValue payload = .ok value ∧
    i.progress = .ended (.updated stale) ∧
    (stale = true ∨ Cache.keep r i.before.store con value etag = i.before.store)

/-- What the record has for the owner of the value on display is this value, or what it had already
before an answer brought the value and the store did not get it. -/
def Backed (past : List (Incident r)) (store : Store) (y : Sync r) : Prop :=
  ∀ con value etag, y.published = .success value etag → y.owner = some con →
    ∀ p, Cache.recorded? r store con = some p → p = (value, etag) ∨
      ∃ i ∈ past, i.Unsaved con value etag ∧ Cache.recorded? r i.before.store con = some p

namespace Backed

variable {store' : Store} {y y' : Sync r} {value : r.Live} {etag : Option String}

theorem mono (i : Incident r) (h : Backed past store y) : Backed (i :: past) store y := by
  intro con value etag published owner p recorded
  refine (h con value etag published owner p recorded).imp_right ?_
  rintro ⟨j, mem, older⟩
  exact ⟨j, List.mem_cons_of_mem i mem, older⟩

/-- Nothing but the record, the value on display and its owner counts, and of the record no more
than what it still has. -/
theorem congr (h : Backed past store y) (published : y'.published = y.published)
    (owner : y'.owner = y.owner) (less : ∀ con p,
      Cache.recorded? r store' con = some p → Cache.recorded? r store con = some p) :
    Backed past store' y' := by
  intro con value etag published' owner' p recorded
  exact h con value etag (published.symm.trans published') (owner.symm.trans owner') p
    (less con p recorded)

/-- It is enough to look at the value on display and its owner. -/
theorem of_display (published : y.published = .success value etag) (owner : y.owner = some con)
    (backed : ∀ p, Cache.recorded? r store con = some p → p = (value, etag) ∨
      ∃ i ∈ past, i.Unsaved con value etag ∧ Cache.recorded? r i.before.store con = some p) :
    Backed past store y := by
  intro con' value' etag' published' owner' p recorded
  obtain ⟨rfl, rfl⟩ := Published.success.inj (published.symm.trans published')
  obtain rfl := Option.some.inj (owner.symm.trans owner')
  exact backed p recorded

/-- A value that was found in the store is the one that the record has. -/
theorem of_usable (published : y.published = .success value etag) (owner : y.owner = some con)
    (usable : Cache.usable? r store con = some (value, etag)) : Backed past store y :=
  of_display published owner fun _ recorded =>
    .inl (Option.some.inj (recorded.symm.trans (recorded?_of_usable? usable)))

/-- The store has got the value of an answer, or has what it had before. -/
theorem of_answer {i : Incident r} {payload : Value} {stale : Bool} {ticket : Nat}
    {now : Retry.Moment} {faults : List StoreOperation} {f : Flight}
    (published : y.published = .success value etag) (owner : y.owner = some f.con)
    (event : i.event = .move (.answer ticket now (.success payload etag stale)) faults)
    (waited : i.before.Waits ticket f) (progress : i.progress = .ended (.updated stale))
    (decoded : r.liveOfValue payload = .ok value) :
    Backed (i :: past)
      (if stale then i.before.store else Cache.keep r i.before.store f.con value etag) y := by
  have unsaved (why : stale = true ∨
      Cache.keep r i.before.store f.con value etag = i.before.store) :
      Backed (i :: past) i.before.store y :=
    of_display published owner fun p recorded => .inr ⟨i, List.mem_cons_self,
      ⟨ticket, now, payload, stale, faults, f, event, waited, rfl, decoded, progress, why⟩,
      recorded⟩
  cases stale with
  | true => exact unsaved (.inl rfl)
  | false =>
    rcases Cache.keep_cases r i.before.store f.con value etag with same | kept
    · rw [if_neg nofun, same]
      exact unsaved (.inr same)
    · refine of_display published owner fun p recorded => .inl ?_
      rw [if_neg nofun, kept] at recorded
      have record := Records.find?_insert_self (Cache.recordKey r.name)
        (Cache.recordText r f.con value etag) i.before.store.records
      obtain ⟨-, tag, again⟩ := Cache.of_usable? (s := { i.before.store with
        failing := [], records := i.before.store.records.insert _ _ }) record recorded
      exact Prod.ext (Resource.ofStored_of_liveOfValue decoded again) tag

theorem settled {i : Incident r} {ticket : Nat} {now : Retry.Moment} {o : Outcome Value}
    {faults : List StoreOperation} {f : Flight} {reload : Reload}
    (h : Backed (i :: past) i.before.store y) (sourced : Sourced (i :: past) y)
    (event : i.event = .move (.answer ticket now o) faults) (waited : i.before.Waits ticket f)
    (progress : i.progress = .ended reload)
    (settled : Settled policy now f o i.before.store y reload store' y') :
    Backed (i :: past) store' y' := by
  cases settled with
  | superseded => exact h
  | @updated _ _ _ stale answer decoded =>
    subst answer
    exact of_answer (by cases stale <;> rfl) (by cases stale <;> rfl) event waited progress decoded
  | notModified _ usable => exact of_usable rfl rfl usable
  | @failed code =>
    unfold fail
    split
    · -- The value that stays on display has its owner already.
      rename_i shows
      simp only [Bool.and_eq_true, decide_eq_true_eq] at shows
      refine h.congr rfl ?_ fun _ _ => id
      cases sourced with
      | pending published => simp [published, Published.isSuccess] at shows
      | success published owner shown => exact shows.2.symm.trans (shown.trans owner.symm)
      | error published => simp [published, Published.isSuccess] at shows
    · intro con value etag published
      cases published

theorem part {i : Incident r} (h : Backed (i :: past) s.store s.sync)
    (allowed : Reserved i.before i.event) (sourced : Sourced (i :: past) s.sync)
    (p : Part i s s') : Backed (i :: past) s'.store s'.sync := by
  cases p with
  | rest store sync =>
    obtain ⟨retry, sync⟩ := sync
    rw [store, sync]
    exact h.congr rfl rfl fun _ _ => id
  | found _ _ usable store sync =>
    rw [store, sync]
    exact of_usable rfl rfl usable
  | begun _ _ store sync =>
    rw [store, sync]
    exact h.congr (published_select _ _) (owner_select _ _) fun _ _ => id
  | settled event first waited progress settled =>
    subst first
    exact h.settled sourced event waited progress settled
  | again _ _ _ _ _ _ store sync =>
    rw [store, sync]
    exact h.congr rfl rfl fun _ _ => recorded?_drop
  | cleared store machine =>
    rw [store, Scene.sync, machine]
    exact h.congr rfl rfl fun _ _ => recorded?_drop
  | interfered event first =>
    subst first
    rw [event] at allowed
    refine h.congr rfl rfl fun con p recorded => ?_
    rwa [recorded?_congr allowed.2] at recorded

end Backed

theorem Run.backed (run : Run Reserved (.new policy store) past s) :
    Backed past s.store s.sync := by
  have both : Sourced past s.sync ∧ Backed past s.store s.sync := by
    refine run.invariant (fun past s => Sourced past s.sync ∧ Backed past s.store s.sync)
      ⟨.pending rfl rfl, by rintro con value etag ⟨⟩⟩
      (fun _ i _ ⟨sourced, h⟩ => ⟨sourced.mono i, h.mono i⟩) ?_
    rintro past i s s' allowed - ⟨sourced, h⟩ p
    exact ⟨sourced.part p, h.part allowed sourced p⟩
  exact both.2

/-! ## Reactivation -/

/-- **Reactivation.** The record is left to the synchronizer, and a value is on display that belongs
to a con. To activate the con changes nothing while it is selected. While another con is selected,
and there is nothing for the con that can be used, the value stays and a request is made. Otherwise
what the store has is shown: either the value that is on display, or one that the store had before
an answer brought the value on display without reaching the store. -/
theorem reactivation_shows_record (run : Run Reserved (.new policy store) past s)
    {value : r.Live} {etag : Option String} (published : s.sync.published = .success value etag)
    (owner : s.sync.owner = some con) (faults : List StoreOperation) :
    let e := Event.move (.activate con) faults
    (s.sync.selected = some con → s.progress e = .unchanged ∧ s.next e = s) ∧
    (s.sync.selected ≠ some con → Cache.usable? r s.store con = none →
      (∃ ticket f, s.progress e = .sent ticket f ∧ f.con = con) ∧
        (s.next e).sync.published = .success value etag) ∧
    (s.sync.selected ≠ some con → ∀ value' etag',
      Cache.usable? r s.store con = some (value', etag') →
      (s.next e).sync.published = .success value' etag' ∧
        ((value', etag') = (value, etag) ∨ ∃ i ∈ past, i.Unsaved con value etag ∧
          Cache.recorded? r i.before.store con = some (value', etag'))) := by
  intro e
  have hidden (other : s.sync.selected ≠ some con) : s.sync.isShowing con = false :=
    Bool.eq_false_iff.2 fun showing => other (isShowing_iff.1 showing).1
  refine ⟨fun selected => ?_, fun other unusable => ?_, fun other value' etag' usable => ?_⟩
  · have showing : s.sync.isShowing con = true :=
      isShowing_iff.2 ⟨selected, owner, by rw [published]; rfl⟩
    have performed := perform_activate_of_showing showing faults
    exact ⟨congrArg Prod.fst performed, congrArg Prod.snd performed⟩
  · obtain ⟨m, performed, -, -, sync, -⟩ :=
      perform_activate_of_unusable (hidden other) unusable faults
    have next : s.next e = ⟨s.store, m⟩ := congrArg Prod.snd performed
    refine ⟨⟨_, _, congrArg Prod.fst performed, rfl⟩, ?_⟩
    rw [next, Scene.sync, sync, published_begun, published]
  · obtain ⟨_, s', performed, -, sync, -⟩ :=
      perform_activate_of_usable (hidden other) usable faults
    have next : s.next e = s' := congrArg Prod.snd performed
    refine ⟨by rw [next, sync]; rfl, ?_⟩
    exact run.backed con value etag published owner _ (recorded?_of_usable? usable)

/-- Pages of a con come in two editions, the first of which is kept, and the second stale. Then
another con is selected, whose request is out. -/
def twoEditionsOfPages : List Event :=
  [.move (.activate "a") [], .move (.answer 0 0 (.success (.array []) (some "v1") false)) [],
    .move .reload [], .move (.answer 1 0 (.success (.array [.object [("id", .string "1"),
      ("slug", .string "map"), ("title", .string "Map")]]) (some "v2") true)) [],
    .move (.activate "b") []]

/-- What the store has is older than the edition on display. -/
theorem reactivation_shows_first_edition :
    let start : Scene .pages := .new .standard { kind := .database }
    let s := start.afterAll twoEditionsOfPages
    let second : List Page := [⟨"1", "Map", "map", ""⟩]
    s.sync.published = .success second (some "v2") ∧ s.sync.owner = some "a" ∧
      ∃ past, Run Reserved start past s ∧ ∃ i ∈ past, i.Unsaved "a" second (some "v2") ∧
        Cache.recorded? .pages i.before.store "a" = some ([], some "v1") := by
  intro start s second
  have published : s.sync.published = .success second (some "v2") := by decide
  have owner : s.sync.owner = some "a" := by decide
  obtain ⟨past, run⟩ : ∃ past, Run Reserved start past s :=
    Run.nil.afterAll _ ⟨trivial, trivial, trivial, trivial, trivial, trivial⟩
  obtain ⟨-, -, shown⟩ := reactivation_shows_record run published owner []
  obtain ⟨-, same | older⟩ := shown (by decide) [] (some "v1") (by decide)
  · exact absurd same (by decide)
  · exact ⟨published, owner, past, run, older⟩

/-- The second edition of the pages is on display, and the first one comes back. -/
theorem reactivation_brings_back_first_edition :
    let start : Scene .pages := .new .standard { kind := .database }
    let s := start.afterAll twoEditionsOfPages
    let first := (start.afterAll (twoEditionsOfPages.take 2)).sync.published
    let s' := s.next (.move (.activate "a") [])
    s.sync.owner = some "a" ∧ s.sync.published.isSuccess = true ∧ s.sync.published ≠ first ∧
      s'.sync.owner = some "a" ∧ s'.sync.published = first := by
  decide

end Sync

end OfflineSchedule
