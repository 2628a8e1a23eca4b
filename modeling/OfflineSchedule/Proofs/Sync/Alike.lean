import OfflineSchedule.Proofs.Cache.Usable
import OfflineSchedule.Proofs.Sync.Step
/-!
# What a synchronizer knows of its store

A synchronizer reads nothing of its store but the record of its resource, and writes nothing else.
In two stores that have the same record for it and fail in the same way (`Store.Alike`) it does the
same, and leaves two stores that are alike again (`Scene.Alike.move`). Only a quota would count what
the other resources have kept.
-/

namespace OfflineSchedule

open Http (Outcome)
open Json (Value)
open Retry (Moment)
open Sync (Event Flight Machine Move Progress Scene)

variable {r : Resource}

/-! ## Stores -/

/-- What is kept in the store does not depend on what else is kept there. -/
def Store.IsUnlimited (s : Store) : Prop := ∀ quota, s.kind ≠ .memory (some quota)

/-- For a resource, the stores are the same. -/
structure Store.Alike (r : Resource) (s s' : Store) : Prop where
  record : Cache.record? r s = Cache.record? r s'
  failing : s.failing = s'.failing
  kind : s.kind = s'.kind

namespace Store

theorem IsUnlimited.checkQuota {s : Store} (h : s.IsUnlimited) (key value : String) :
    s.checkQuota key value = .ok () := by
  unfold Store.checkQuota
  split
  · rename_i quota kind
    exact absurd kind (h quota)
  · rfl

theorem IsUnlimited.congr {s s' : Store} (h : s.IsUnlimited) (kind : s'.kind = s.kind) :
    s'.IsUnlimited := fun quota => kind ▸ h quota

end Store

namespace Cache

/-- Without a quota a value is kept if the store can be written. -/
theorem record?_keep_of_isUnlimited {s : Store} (h : s.IsUnlimited) (con : String)
    (value : r.Live) (etag : Option String) :
    record? r (keep r s con value etag) =
      if .set ∈ s.failing ∨ s.kind = .disabled then record? r s
      else some (recordText r con value etag) := by
  unfold keep put Store.set
  by_cases failing : .set ∈ s.failing
  · simp [failing]
  · by_cases kind : s.kind = .disabled
    · simp [failing, kind]
    · simp only [failing, kind, if_false, h.checkQuota, Except.map, or_self]
      exact Records.find?_insert_self ..

theorem record?_drop_eq (s : Store) :
    record? r (drop r s) = if .remove ∈ s.failing then record? r s else none := by
  split
  · rename_i failing
    simp [drop, remove, Store.remove, failing]
  · rename_i removable
    exact record?_drop_of_removable removable

end Cache

namespace Store.Alike

variable {s s' : Store}

theorem refl (r : Resource) (s : Store) : Alike r s s := ⟨rfl, rfl, rfl⟩

theorem symm (h : Alike r s s') : Alike r s' s := ⟨h.record.symm, h.failing.symm, h.kind.symm⟩

theorem trans {s'' : Store} (h : Alike r s s') (h' : Alike r s' s'') : Alike r s s'' :=
  ⟨h.record.trans h'.record, h.failing.trans h'.failing, h.kind.trans h'.kind⟩

/-- Both begin to fail in the same operations. -/
theorem fail (h : Alike r s s') (faults : List StoreOperation) :
    Alike r { s with failing := faults } { s' with failing := faults } :=
  ⟨h.record, rfl, h.kind⟩

theorem text?_eq (h : Alike r s s') : Cache.text? s r.name = Cache.text? s' r.name := by
  have record : s.records.find? (Cache.recordKey r.name) = s'.records.find? _ := h.record
  simp only [Cache.text?, Store.get, h.failing, record]

theorem usable?_eq (h : Alike r s s') (con : String) :
    Cache.usable? r s con = Cache.usable? r s' con := Cache.usable?_congr h.text?_eq con

theorem etag?_eq (h : Alike r s s') (con : String) :
    Cache.etag? r s con = Cache.etag? r s' con := by
  simp only [Cache.etag?, Cache.header, h.text?_eq]

theorem keep (h : Alike r s s') (unlimited : s.IsUnlimited) (con : String) (value : r.Live)
    (etag : Option String) :
    Alike r (Cache.keep r s con value etag) (Cache.keep r s' con value etag) := by
  have unlimited' : s'.IsUnlimited := unlimited.congr h.kind.symm
  refine ⟨?_, ?_, ?_⟩
  · rw [Cache.record?_keep_of_isUnlimited unlimited, Cache.record?_keep_of_isUnlimited unlimited',
      h.record, h.failing, h.kind]
  · rw [Cache.failing_keep, Cache.failing_keep, h.failing]
  · rw [Cache.kind_keep, Cache.kind_keep, h.kind]

theorem drop (h : Alike r s s') : Alike r (Cache.drop r s) (Cache.drop r s') := by
  refine ⟨?_, ?_, ?_⟩
  · rw [Cache.record?_drop_eq, Cache.record?_drop_eq, h.record, h.failing]
  · rw [Cache.failing_drop, Cache.failing_drop, h.failing]
  · rw [Cache.kind_drop, Cache.kind_drop, h.kind]

end Store.Alike

/-! ## Synchronizers -/

namespace Sync

variable {s s' : Store}

theorem issue_alike (h : s.Alike r s') (y : Sync r) : y.issue s = y.issue s' := by
  unfold issue
  split
  · rfl
  · rw [h.etag?_eq]

theorem activate_alike (h : s.Alike r s') (con : String) (y : Sync r) :
    y.activate con s = y.activate con s' := by
  unfold activate
  rw [h.usable?_eq]

/-- An answer leads to the same, and the stores stay alike. -/
theorem answer_alike (h : s.Alike r s') (unlimited : s.IsUnlimited) (policy : Retry.Policy)
    (now : Moment) (f : Flight) (o : Outcome Value) (y : Sync r) :
    ∃ verdict t t' y', y.answer policy now f o s = (verdict, t, y') ∧
      y.answer policy now f o s' = (verdict, t', y') ∧ t.Alike r t' := by
  cases o with
  | success payload etag stale =>
    cases decoded : r.liveOfValue payload with
    | error e =>
      simp only [answer, decoded]
      exact ⟨_, _, _, _, rfl, rfl, h⟩
    | ok value =>
      cases latest : y.isLatest f <;> cases stale <;>
        simp only [answer, decoded, latest, if_true, if_false, Bool.false_eq_true]
      · exact ⟨_, _, _, _, rfl, rfl, h⟩
      · exact ⟨_, _, _, _, rfl, rfl, h⟩
      · exact ⟨_, _, _, _, rfl, rfl, h.keep unlimited f.con value etag⟩
      · exact ⟨_, _, _, _, rfl, rfl, h⟩
  | notModified =>
    simp only [answer, ← h.usable?_eq]
    cases Cache.usable? r s f.con with
    | some p =>
      cases y.isLatest f <;> exact ⟨_, _, _, _, rfl, rfl, h⟩
    | none =>
      cases f.etag.isSome with
      | true => exact ⟨_, _, _, _, rfl, rfl, h.drop⟩
      | false => exact ⟨_, _, _, _, rfl, rfl, h⟩
  | error code => exact ⟨_, _, _, _, rfl, rfl, h⟩

namespace Machine

theorem reload_alike (h : s.Alike r s') (m : Machine r) : m.reload s = m.reload s' := by
  unfold reload
  rw [issue_alike h]

theorem activate_alike (h : s.Alike r s') (con : String) (faults : List StoreOperation)
    (m : Machine r) : m.activate con s faults = m.activate con s' faults := by
  unfold activate
  rw [Sync.activate_alike h]
  split
  · rfl
  · exact reload_alike (h.fail faults) _
  · rfl
  · rfl

theorem refresh_alike (h : s.Alike r s') (con : String) (faults : List StoreOperation)
    (m : Machine r) : m.refresh con s faults = m.refresh con s' faults := by
  unfold refresh
  rw [activate_alike h]
  split
  · rfl
  · exact reload_alike (h.fail faults) _
  · exact reload_alike (h.fail faults) _
  · rfl

theorem start_alike (h : s.Alike r s') (ticket : Nat) (m : Machine r) :
    m.start ticket s = m.start ticket s' := by
  unfold start
  rw [issue_alike h]

theorem retry_alike (h : s.Alike r s') (m : Machine r) : m.retry s = m.retry s' := by
  unfold retry
  rw [reload_alike h]

theorem answer_alike (h : s.Alike r s') (unlimited : s.IsUnlimited) (ticket : Nat) (now : Moment)
    (o : Outcome Value) (m : Machine r) :
    ∃ p t t' m', m.answer ticket now o s = (p, t, m') ∧ m.answer ticket now o s' = (p, t', m') ∧
      t.Alike r t' := by
  unfold answer
  split
  · rename_i f _
    obtain ⟨verdict, t, t', y, first, second, stores⟩ :=
      Sync.answer_alike h unlimited m.policy now f o m.sync
    rw [first, second]
    cases verdict <;> exact ⟨_, _, _, _, rfl, rfl, stores⟩
  · exact ⟨_, _, _, _, rfl, rfl, h⟩

end Machine

/-! ## Scenes -/

/-- A synchronizer in two stores that are alike for it. -/
structure Scene.Alike (s s' : Scene r) : Prop where
  machine : s.machine = s'.machine
  store : s.store.Alike r s'.store

namespace Scene.Alike

variable {s s' : Scene r}

theorem refl (s : Scene r) : s.Alike s := ⟨rfl, .refl r s.store⟩

theorem symm (h : s.Alike s') : s'.Alike s := ⟨h.machine.symm, h.store.symm⟩

theorem trans {s'' : Scene r} (h : s.Alike s') (h' : s'.Alike s'') : s.Alike s'' :=
  ⟨h.machine.trans h'.machine, h.store.trans h'.store⟩

/-- A move does the same in both. -/
theorem move (h : s.Alike s') (unlimited : s.store.IsUnlimited) (m : Move)
    (faults : List StoreOperation) :
    s.progress (.move m faults) = s'.progress (.move m faults) ∧
      (s.next (.move m faults)).Alike (s'.next (.move m faults)) := by
  obtain ⟨store, machine⟩ := s
  obtain ⟨store', machine'⟩ := s'
  obtain ⟨rfl, stores⟩ : machine = machine' ∧ store.Alike r store' := ⟨h.machine, h.store⟩
  suffices ∃ p t t' m', machine.step m store faults = (p, t, m') ∧
      machine.step m store' faults = (p, t', m') ∧ t.Alike r t' by
    obtain ⟨p, t, t', m', first, second, after⟩ := this
    simp only [Scene.progress, Scene.next, Scene.perform, first, second]
    exact ⟨trivial, rfl, after⟩
  -- A move that leaves the store as it is does what the record says.
  have beside : ∀ x x' : Progress × Machine r, x = x' →
      ∃ p t t' m', Machine.beside store x = (p, t, m') ∧
        Machine.beside store' x' = (p, t', m') ∧ t.Alike r t' := by
    rintro x _ rfl
    exact ⟨_, _, _, _, rfl, rfl, stores⟩
  cases m with
  | activate con => exact beside _ _ (machine.activate_alike stores con faults)
  | refresh con => exact beside _ _ (machine.refresh_alike stores con faults)
  | reload => exact beside _ _ (machine.reload_alike stores)
  | clear => exact ⟨_, _, _, _, rfl, rfl, stores.drop⟩
  | start ticket => exact beside _ _ (machine.start_alike stores ticket)
  | answer ticket now o => exact machine.answer_alike stores unlimited ticket now o
  | retry => exact beside _ _ (machine.retry_alike stores)
  | shutdown => exact beside (.done, { machine with sync := machine.sync.resetRetry }) _ rfl
  | abandon ticket => exact beside (.done, machine.endJob ticket) _ rfl
  | fire => exact beside (.done, machine.fire) _ rfl

end Scene.Alike

end Sync

end OfflineSchedule
