import OfflineSchedule.Proofs.Sync.Step
/-!
# The parts of a step

Of an act most invariants need no more than what it does to the store, to the synchronizer, its
retries apart, and to the requests that are out. `Part` says this much of it, so that all the
bookkeeping of reloads and retries is one case, and `parts_next` says that a step consists of such
parts.
-/

namespace OfflineSchedule.Sync

open Http (Outcome)
open Json (Value)
open Relation (ReflTransGen)
open Retry (Moment Policy)

variable {r : Resource}

/-- What can happen to a scene as a part of the incident `i`. -/
inductive Part (i : Incident r) : Scene r → Scene r → Prop where
  /-- Retries and the bookkeeping of reloads apart, nothing happens. -/
  | rest {s s' : Scene r} (store : s'.store = s.store)
      (sync : ∃ retry, s'.sync = { s.sync with retry })
      (waits : ∀ k f, s'.Waits k f → s.Waits k f) : Part i s s'
  /-- A con is activated whose cached value can be used, and is put on display. -/
  | found {s s' : Scene r} {con : String} {value : r.Live} {etag : Option String}
      (first : s = i.before) (hidden : s.sync.isShowing con = false)
      (usable : Cache.usable? r s.store con = some (value, etag)) (store : s'.store = s.store)
      (sync : s'.sync = s.sync.found con value etag)
      (waits : ∀ k f, s'.Waits k f → s.Waits k f) : Part i s s'
  /-- A request is made for a con, which is selected already or has just been looked for in the
  cache in vain. -/
  | begun {s s' : Scene r} {con : String} {ticket : Nat} (faults : List StoreOperation)
      (why : s.sync.selected = some con ∨ s = i.before ∧ Cache.usable? r s.store con = none)
      (store : s'.store = s.store) (sync : s'.sync = s.sync.begun con)
      (waits : ∀ k f, s'.Waits k f →
        k = ticket ∧ f = s.sync.request con { s.store with failing := faults } ∨
        k ≠ ticket ∧ s.Waits k f) : Part i s s'
  /-- An answer ends a reload. -/
  | settled {s s' : Scene r} {ticket : Nat} {now : Moment} {o : Outcome Value}
      {faults : List StoreOperation} {f : Flight} {reload : Reload}
      (event : i.event = .move (.answer ticket now o) faults) (first : s = i.before)
      (waited : s.Waits ticket f) (progress : i.progress = .ended reload)
      (settled : Settled s.machine.policy now f o s.store s.sync reload s'.store s'.sync)
      (waits : ∀ k g, s'.Waits k g → k ≠ ticket ∧ s.Waits k g) : Part i s s'
  /-- A confirmation finds nothing to confirm, so that the request is made again. -/
  | again {s s' : Scene r} {ticket : Nat} {now : Moment} {faults : List StoreOperation}
      {f : Flight} (event : i.event = .move (.answer ticket now .notModified) faults)
      (first : s = i.before) (waited : s.Waits ticket f)
      (progress : i.progress = .sent ticket { f with etag := none })
      (unusable : Cache.usable? r s.store f.con = none) (asked : f.etag.isSome = true)
      (store : s'.store = Cache.drop r s.store) (sync : s'.sync = s.sync)
      (waits : ∀ k g, s'.Waits k g →
        k = ticket ∧ g = { f with etag := none } ∨ k ≠ ticket ∧ s.Waits k g) : Part i s s'
  | cleared {s s' : Scene r} (store : s'.store = Cache.drop r s.store)
      (machine : s'.machine = s.machine) : Part i s s'
  | interfered {s : Scene r} {store : Store} (event : i.event = .interference store)
      (first : s = i.before) : Part i s { s with store }

namespace Part

variable {i : Incident r} {s : Scene r}

/-- Parts that lead from one scene to another. -/
abbrev Chain (i : Incident r) : Scene r → Scene r → Prop := ReflTransGen (Part i)

/-! ### Jobs -/

theorem waits_endJob {ticket k : Nat} {f : Flight} {m : Machine r}
    (h : (m.endJob ticket).job? k = some (.fetching f)) :
    k ≠ ticket ∧ m.job? k = some (.fetching f) := by
  rw [Machine.job?_endJob] at h
  by_cases hk : k = ticket
  · simp [hk] at h
  · exact ⟨hk, by simpa [hk] using h⟩

theorem waits_setJob {ticket k : Nat} {f : Flight} {j : Job} {m : Machine r}
    (h : (m.setJob ticket j).job? k = some (.fetching f)) :
    k = ticket ∧ j = .fetching f ∨ k ≠ ticket ∧ m.job? k = some (.fetching f) := by
  rw [Machine.job?_setJob] at h
  by_cases hk : k = ticket
  · exact .inl ⟨hk, by simpa [hk] using h⟩
  · exact .inr ⟨hk, by simpa [hk] using h⟩

/-- A reload begins under a ticket. -/
theorem of_setJob {con : String} {ticket : Nat} {m : Machine r} (faults : List StoreOperation)
    (why : s.sync.selected = some con ∨ s = i.before ∧ Cache.usable? r s.store con = none)
    (sync : m.sync = s.sync.begun con)
    (jobs : m.jobs = (s.machine.setJob ticket
      (.fetching (s.sync.request con { s.store with failing := faults }))).jobs) :
    Part i s ⟨s.store, m⟩ := by
  have waits : ∀ k f, m.job? k = some (.fetching f) →
      k = ticket ∧ f = s.sync.request con { s.store with failing := faults } ∨
      k ≠ ticket ∧ s.Waits k f := by
    intro k f hw
    rw [Machine.job?, jobs, ← Machine.job?] at hw
    rcases waits_setJob hw with ⟨hk, hf⟩ | hw
    · exact .inl ⟨hk, (Job.fetching.inj hf).symm⟩
    · exact .inr hw
  exact .begun faults why rfl sync waits

end Part

/-- Every act is a part. -/
theorem Act.part {i : Incident r} {s s' : Scene r} (h : Act i s s') : Part i s s' := by
  cases h with
  | found first hidden usable => exact .found first hidden usable rfl rfl fun _ _ hw => hw
  | queued =>
    refine .rest rfl ⟨s.sync.retry, rfl⟩ fun k f hw => ?_
    rcases Part.waits_setJob (m := s.machine) hw with ⟨-, hf⟩ | ⟨-, hw⟩
    · cases hf
    · exact hw
  | begun faults why => exact Part.of_setJob faults why rfl rfl
  | started _ selected => exact Part.of_setJob s.store.failing (.inl selected) rfl rfl
  | abandoned =>
    exact .rest rfl ⟨s.sync.retry, rfl⟩ fun _ _ hw => (Part.waits_endJob hw).2
  | @settled _ _ _ _ _ _ _ sync event first waited progress settled =>
    exact .settled event first waited progress settled fun k g hg =>
      Part.waits_endJob (m := { s.machine with sync }) hg
  | again event first waited progress unusable asked =>
    refine .again event first waited progress unusable asked rfl rfl fun k g hg => ?_
    rcases Part.waits_setJob (m := s.machine) hg with ⟨hk, hg⟩ | hg
    · exact .inl ⟨hk, (Job.fetching.inj hg).symm⟩
    · exact .inr hg
  | cleared => exact .cleared rfl rfl
  | stopped => exact .rest rfl ⟨s.sync.retry.reset, rfl⟩ fun _ _ hw => hw
  | fired => exact .rest rfl ⟨s.sync.retry.cancelPending, rfl⟩ fun _ _ hw => hw
  | taken => exact .rest rfl ⟨s.sync.retry, rfl⟩ fun _ _ hw => hw
  | looped => exact .rest rfl ⟨s.sync.retry, rfl⟩ fun _ _ hw => hw
  | interfered event first => exact .interfered event first

/-- Nothing but parts happens in a step. -/
theorem parts_next (s : Scene r) (e : Event) : Part.Chain ⟨s, e⟩ s (s.next e) :=
  ReflTransGen.mono (fun _ _ h => Act.part h) _ _ (acts_next s e)

/-- What no part of an event destroys holds after it. -/
theorem parts_induction {s : Scene r} {e : Event} {I : Scene r → Prop} (init : I s)
    (part : ∀ a b, Part ⟨s, e⟩ a b → I a → I b) : I (s.next e) := by
  have chain : ∀ s', Part.Chain ⟨s, e⟩ s s' → I s' := by
    intro s' h
    induction h with
    | refl => exact init
    | tail _ h ih => exact part _ _ h ih
  exact chain _ (parts_next s e)

end OfflineSchedule.Sync
