import OfflineSchedule.Convention
import OfflineSchedule.Proofs.Sync.Provenance
/-!
# Runs of a convention

The resources of a con share nothing but the store, and each of them has a record of its own there.
For one resource, what another one does is therefore a change of the store that leaves its record
as it is, and a run of the con is a run of each of its resources (`Run.scene`).
-/

namespace OfflineSchedule.Convention

open Sync (Incident Move Progress Scene)

variable {r : Resource}

theorem mem_resources {c : Convention} : r ∈ c.resources ↔ c.has r = true := by
  cases r <;> simp [resources, Resource.all]

/-! ## Stages -/

/-- A con together with the store that its resources share. -/
structure Stage where
  store : Store
  convention : Convention

namespace Stage

/-- A con that nothing has happened to yet. -/
def new (policy : Retry.Policy) (hasAnnouncements : Bool) (store : Store) : Stage :=
  ⟨store, .new policy hasAnnouncements⟩

/-- What concerns one resource. -/
def scene (r : Resource) (s : Stage) : Scene r := ⟨s.store, s.convention.get r⟩

/-- The stage after a move of a resource. -/
def next (r : Resource) (m : Move) (s : Stage) : Stage :=
  let (_, store, convention) := s.convention.step r m s.store
  ⟨store, convention⟩

/-- What the move leads to for whoever caused it. -/
def progress (r : Resource) (m : Move) (s : Stage) : Progress :=
  (s.convention.step r m s.store).1

theorem scene_new (policy : Retry.Policy) (hasAnnouncements : Bool) (store : Store) :
    (new policy hasAnnouncements store).scene r = .new policy store := by
  cases r <;> rfl

theorem scene_next_self (s : Stage) (m : Move) :
    (s.next r m).scene r = (s.scene r).next (.move m s.store.failing) := by
  simp [scene, next, Convention.step, Scene.next, Scene.perform]

theorem scene_next_of_ne {other : Resource} (h : r ≠ other) (s : Stage) (m : Move) :
    (s.next other m).scene r = ⟨(s.next other m).store, (s.scene r).machine⟩ := by
  simp [scene, next, Convention.step, get_set_of_ne s.convention h]

/-- A move selects the con that it activates for its resource, and no other con for any resource. -/
theorem selected_next (s : Stage) (other : Resource) (m : Move) :
    ((s.next other m).scene r).sync.selected =
      if r = other then m.activated?.or (s.scene r).sync.selected
      else (s.scene r).sync.selected := by
  by_cases h : r = other
  · subst h
    rw [if_pos rfl, scene_next_self, Sync.selected_next, Sync.Event.activated?]
  · rw [if_neg h, scene_next_of_ne h]

/-- No move changes which resources the con has. -/
theorem has_next (s : Stage) (r other : Resource) (m : Move) :
    (s.next r m).convention.has other = s.convention.has other := by
  cases r <;> rfl

theorem store_next (s : Stage) (m : Move) :
    (s.next r m).store = ((s.scene r).next (.move m s.store.failing)).store := rfl

end Stage

/-- A move of a resource, and the stage before it. -/
structure Deed where
  before : Stage
  resource : Resource
  move : Move

namespace Deed

def after (d : Deed) : Stage := d.before.next d.resource d.move

/-- What a deed is for a resource: a move of its own, or a change of the store by another one. -/
def event (r : Resource) (d : Deed) : Sync.Event :=
  if d.resource = r then .move d.move d.before.store.failing else .interference d.after.store

def incident (r : Resource) (d : Deed) : Incident r := ⟨d.before.scene r, d.event r⟩

theorem scene_after (r : Resource) (d : Deed) :
    d.after.scene r = (d.before.scene r).next (d.event r) := by
  obtain ⟨s, other, m⟩ := d
  by_cases h : other = r
  · subst h
    rw [event, if_pos rfl]
    exact s.scene_next_self m
  · rw [event, if_neg h]
    exact s.scene_next_of_ne (Ne.symm h) m

end Deed

/-! ## What resources do to the store -/

/-- A resource keeps a value, drops its record, or leaves the store as it is. -/
theorem Stage.store_cases (s : Stage) (r : Resource) (m : Move) :
    (∃ e : Envelope r.Live, (s.next r m).store = Cache.keep r s.store e.con e.value e.etag) ∨
      (s.next r m).store = s.store ∨ (s.next r m).store = Cache.drop r s.store := by
  rw [store_next]
  rcases Sync.store_after (⟨s.scene r, .move m s.store.failing⟩ : Incident r) with
    ⟨e, -, -, after⟩ | ⟨-, after | ⟨after, -⟩ | event⟩
  · exact .inl ⟨e, after⟩
  · exact .inr (.inl after)
  · exact .inr (.inr after)
  · cases event

/-- The store stays of one kind, and goes on to fail in the same. -/
theorem Stage.keeps_next (s : Stage) (r : Resource) (m : Move) :
    (s.next r m).store.kind = s.store.kind ∧ (s.next r m).store.failing = s.store.failing := by
  rcases s.store_cases r m with ⟨e, h⟩ | h | h <;> rw [h]
  · exact ⟨Cache.kind_keep .., Cache.failing_keep ..⟩
  · exact ⟨rfl, rfl⟩
  · exact ⟨Cache.kind_drop .., Cache.failing_drop ..⟩

/-- Resources leave the records of the others alone. -/
theorem Stage.record?_next_of_ne {other : Resource} (h : r ≠ other) (s : Stage) (m : Move) :
    Cache.record? r (s.next other m).store = Cache.record? r s.store := by
  rcases s.store_cases other m with ⟨e, hs⟩ | hs | hs <;> rw [hs]
  · exact Cache.record?_keep_of_ne h ..
  · exact Cache.record?_drop_of_ne h _

/-! ## Runs -/

/-- The runs that begin at `start`, all moves of which the surroundings allow: what has been done,
the latest deed first, and the stage that it has led to. -/
inductive Run (Allowed : Stage → Resource → Move → Prop) (start : Stage) :
    List Deed → Stage → Prop where
  | nil : Run Allowed start [] start
  | cons {past : List Deed} {s : Stage} {r : Resource} {m : Move} (run : Run Allowed start past s)
      (allowed : Allowed s r m) : Run Allowed start (⟨s, r, m⟩ :: past) (s.next r m)

variable {Allowed : Stage → Resource → Move → Prop} {start s : Stage} {past : List Deed}

theorem Run.keeps (run : Run Allowed start past s) :
    s.store.kind = start.store.kind ∧ s.store.failing = start.store.failing := by
  induction run with
  | nil => exact ⟨rfl, rfl⟩
  | @cons _ s r m _ _ ih =>
    obtain ⟨kind, failing⟩ := s.keeps_next r m
    exact ⟨kind.trans ih.1, failing.trans ih.2⟩

theorem Run.has (run : Run Allowed start past s) (r : Resource) :
    s.convention.has r = start.convention.has r := by
  induction run with
  | nil => rfl
  | @cons _ s other m _ _ ih => exact (s.has_next other r m).trans ih

/-- What has happened to a resource in a run of the con. -/
def incidents (r : Resource) (past : List Deed) : List (Incident r) := past.map (·.incident r)

/-- A run of the con is a run of each of its resources. -/
theorem Run.scene {policy : Retry.Policy} {hasAnnouncements : Bool} {store : Store}
    {Allowed' : Scene r → Sync.Event → Prop}
    (allows : ∀ past s other m, Run Allowed (.new policy hasAnnouncements store) past s →
      Allowed s other m → Allowed' (s.scene r) (Deed.event r ⟨s, other, m⟩))
    (run : Run Allowed (.new policy hasAnnouncements store) past s) :
    Sync.Run Allowed' (.new policy store) (incidents r past) (s.scene r) := by
  induction run with
  | nil =>
    rw [Stage.scene_new]
    exact .nil
  | @cons past s other m run allowed ih =>
    have step := ih.cons (allows past s other m run allowed)
    rwa [← Deed.scene_after r ⟨s, other, m⟩] at step

end OfflineSchedule.Convention
