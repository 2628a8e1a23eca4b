import OfflineSchedule.Proofs.Convention.Run
/-!
# Clearing a con

A con drops the records of the resources that it has, one after the other, and nothing else changes:
no other record, and nothing of what its resources show, ask for or wait for. A con without
announcements has no record of them to drop. One that has been left by a con with announcements
over the same store therefore stays, and is found again.
-/

namespace OfflineSchedule.Convention

open Sync (Incident Move)
open Cache (recordKey)

variable {c : Convention} {r : Resource} {rs : List Resource} {store : Store}

/-! ## The store without some records -/

/-- The store after some resources have dropped their records in turn. -/
def dropAll (rs : List Resource) (store : Store) : Store :=
  rs.foldl (fun s r => Cache.drop r s) store

@[simp] theorem dropAll_cons (r : Resource) (rs : List Resource) (store : Store) :
    dropAll (r :: rs) store = dropAll rs (Cache.drop r store) := rfl

theorem kind_dropAll (rs : List Resource) (store : Store) :
    (dropAll rs store).kind = store.kind := by
  induction rs generalizing store with
  | nil => rfl
  | cons r rs ih => rw [dropAll_cons, ih, Cache.kind_drop]

theorem failing_dropAll (rs : List Resource) (store : Store) :
    (dropAll rs store).failing = store.failing := by
  induction rs generalizing store with
  | nil => rfl
  | cons r rs ih => rw [dropAll_cons, ih, Cache.failing_drop]

/-- The dropped records are gone, and the other resources still have theirs. -/
theorem record?_dropAll (removable : .remove ∉ store.failing) (rs : List Resource) :
    Cache.record? r (dropAll rs store) = if r ∈ rs then none else Cache.record? r store := by
  induction rs generalizing store with
  | nil => rfl
  | cons other rs ih =>
    rw [dropAll_cons, ih (Cache.failing_drop other store ▸ removable)]
    by_cases same : r = other
    · subst same
      simp [Cache.record?_drop_of_removable removable]
    · simp [same, Cache.record?_drop_of_ne same]

/-- No text under another key is touched. -/
theorem find?_dropAll {key : String} (other : ∀ r ∈ rs, key ≠ recordKey r.name) (store : Store) :
    (dropAll rs store).records.find? key = store.records.find? key := by
  induction rs generalizing store with
  | nil => rfl
  | cons r rs ih =>
    obtain ⟨ne, others⟩ := List.forall_mem_cons.1 other
    rw [dropAll_cons, ih others]
    rcases Cache.drop_cases r store with same | erased
    · rw [same]
    · rw [erased]
      exact Records.find?_erase_of_ne ne store.records

/-! ## The con -/

theorem set_get (c : Convention) (r : Resource) : c.set r (c.get r) = c := by
  cases r <;> rfl

theorem stepEach_clear (rs : List Resource) (store : Store) (c : Convention) :
    stepEach .clear rs store c = (dropAll rs store, c) := by
  induction rs generalizing store with
  | nil => rfl
  | cons r rs ih =>
    have step : c.step r .clear store = (.done, Cache.drop r store, c) := by
      simp only [Convention.step, Sync.Machine.step, set_get]
    simp only [stepEach, step, dropAll_cons, ih]

theorem clear_eq (c : Convention) (store : Store) :
    c.clear store = (dropAll c.resources store, c) := stepEach_clear c.resources store c

/-! ## What follows -/

/-- A resource whose record is gone has none until it keeps a value. -/
theorem Run.record?_none {Allowed : Stage → Resource → Move → Prop} {start s : Stage}
    {past : List Deed} (run : Run Allowed start past s)
    (absent : Cache.record? r start.store = none)
    (unkept : ∀ i ∈ incidents r past, i.kept? = none) : Cache.record? r s.store = none := by
  induction run with
  | nil => exact absent
  | @cons past s other m _ _ ih =>
    obtain ⟨last, earlier⟩ := List.forall_mem_cons.1 unkept
    have before : Cache.record? r s.store = none := ih earlier
    by_cases same : other = r
    · subst same
      have last : (⟨s.scene other, .move m s.store.failing⟩ : Incident other).kept? = none := by
        simpa only [Deed.incident, Deed.event, if_true] using last
      rw [Stage.store_next]
      rcases Sync.store_after (⟨s.scene other, .move m s.store.failing⟩ : Incident other) with
        ⟨e, kept, -⟩ | ⟨-, after | ⟨after, -⟩ | event⟩
      · rw [last] at kept
        cases kept
      · exact after ▸ before
      · rw [show ((s.scene other).next (.move m s.store.failing)).store = _ from after]
        rcases Cache.record?_drop other s.store with stays | gone
        · exact stays.trans before
        · exact gone
      · cases event
    · rwa [s.record?_next_of_ne (Ne.symm same) m]

/-- A request for a resource without a record is made without a condition. -/
theorem Stage.sent_etag_none {s : Stage} (absent : Cache.record? r s.store = none) {m : Move}
    {k : Nat} {f : Sync.Flight} (sent : s.progress r m = .sent k f) : f.etag = none := by
  have sent : (s.scene r).progress (.move m s.store.failing) = .sent k f := sent
  rcases Sync.sent_cases sent with ⟨faults, -, etag, -⟩ | ⟨etag, -⟩
  · have absent : Cache.record? r { s.store with failing := faults } = none := absent
    rw [etag]
    exact Cache.etag?_of_record?_none absent f.con
  · exact etag

/-- **What clearing drops.** Let a con with any resources in any state be cleared over a store whose
removals do not fail, whatever the store holds. Then the record of each resource that the con has is
gone, and nothing else has changed: neither a text under another key, nor what the store is and in
what it fails, nor what the con shows, has selected, has numbered or waits for. While no value of a
resource of the con is kept, every request for it is made without a condition. Nothing at all is
cached any more if and only if the con has announcements or the store had no record of any. -/
theorem clear_drops_own_records (c : Convention) (store : Store)
    (removable : .remove ∉ store.failing) :
    let cleared := (c.clear store).1
    (c.clear store).2 = c ∧ cleared.kind = store.kind ∧ cleared.failing = store.failing ∧
    (∀ r, Cache.record? r cleared = if c.has r then none else Cache.record? r store) ∧
    (∀ key, (∀ r, c.has r = true → key ≠ recordKey r.name) →
      cleared.records.find? key = store.records.find? key) ∧
    ((∀ r, Cache.record? r cleared = none) ↔
      c.hasAnnouncements = true ∨ Cache.record? .announcements store = none) ∧
    ∀ r, c.has r = true → ∀ Allowed past s, Run Allowed ⟨cleared, c⟩ past s →
      (∀ i ∈ incidents r past, i.kept? = none) →
      ∀ m k f, s.progress r m = .sent k f → f.etag = none := by
  intro cleared
  have eq : cleared = dropAll c.resources store := congrArg Prod.fst (clear_eq c store)
  have record : ∀ r, Cache.record? r cleared =
      if c.has r then none else Cache.record? r store := by
    intro r
    rw [eq, record?_dropAll removable]
    simp only [mem_resources]
  refine ⟨congrArg Prod.snd (clear_eq c store), eq ▸ kind_dropAll _ store,
    eq ▸ failing_dropAll _ store, record, fun key other => ?_, ⟨fun all => ?_, fun none r => ?_⟩,
    fun r has Allowed past s run unkept m k f sent => ?_⟩
  · rw [eq]
    exact find?_dropAll (fun r mem => other r (mem_resources.1 mem)) store
  · have absent := all .announcements
    rw [record] at absent
    cases announced : c.hasAnnouncements with
    | true => exact .inl rfl
    | false => exact .inr (by simpa [has, announced] using absent)
  · rw [record]
    cases r <;> rcases none with announced | absent <;> simp_all [has]
  · have absent : Cache.record? r cleared = none := by rw [record, if_pos has]
    exact Stage.sent_etag_none (run.record?_none absent unkept) sent

/-- A con with announcements asks for them without a condition once it is cleared, though it goes
on to show them. -/
theorem cleared_announcements_are_asked_for_anew :
    let start := Stage.new .standard true { kind := .database }
    let s := (start.next .announcements (.activate "a")).next .announcements
      (.answer 0 0 (.success (.array []) (some "v1") false))
    let cleared : Stage := ⟨(s.convention.clear s.store).1, s.convention⟩
    .remove ∉ s.store.failing ∧ s.convention.has .announcements = true ∧
      s.progress .announcements .reload = .sent 1 ⟨"a", 2, some "v1"⟩ ∧
      ∃ f, cleared.progress .announcements .reload = .sent 1 f ∧ f.etag = none := by
  intro start s cleared
  have removable : .remove ∉ s.store.failing := by decide +kernel
  have has : s.convention.has .announcements = true := by decide +kernel
  have before : s.progress .announcements .reload = .sent 1 ⟨"a", 2, some "v1"⟩ := by
    decide +kernel
  have sent : cleared.progress .announcements .reload = .sent 1 ⟨"a", 2, none⟩ := by
    decide +kernel
  obtain ⟨-, -, -, -, -, -, unconditional⟩ :=
    clear_drops_own_records s.convention s.store removable
  have etag := unconditional .announcements has (fun _ _ _ => True) [] cleared .nil
    (fun _ mem => absurd mem List.not_mem_nil)
  exact ⟨removable, has, before, _, sent, etag .reload 1 _ sent⟩

/-- Announcements that a con has kept are still there after a con without announcements is cleared
over the same store. A third con shows them from the cache and asks for them under their etag. -/
theorem announcements_outlive_clear :
    let start := Stage.new .standard true { kind := .database }
    let s := (start.next .announcements (.activate "a")).next .announcements
      (.answer 0 0 (.success (.array []) (some "v1") false))
    let cleared := ((Convention.new .standard false).clear s.store).1
    let later := Stage.new .standard true cleared
    .remove ∉ s.store.failing ∧ Cache.record? .announcements cleared ≠ none ∧
      later.progress .announcements (.activate "a") = .cached (some 0) ∧
      (later.next .announcements (.activate "a")).progress .announcements (.start 0) =
        .sent 0 ⟨"a", 2, some "v1"⟩ := by
  decide +kernel

end OfflineSchedule.Convention
