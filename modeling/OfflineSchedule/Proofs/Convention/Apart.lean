import OfflineSchedule.Proofs.Convention.Run
import OfflineSchedule.Proofs.Sync.Alike
import OfflineSchedule.Proofs.Sync.Isolation
/-!
# The resources of a con do not interfere

A resource in a con does what a synchronizer does that has the store to itself and makes the same
moves (`Run.apart`): all it reads of the store is its own record, which no other resource changes,
and without a quota it does not matter how much the others have kept. Two runs of a con in which a
resource makes the same moves are therefore the same for it, whatever becomes of the requests of
the other resources.
-/

namespace OfflineSchedule.Convention

open Sync (Incident Machine Move Progress Scene)

variable {r : Resource}

/-! ## What is seen of a resource -/

/-- A move of a resource and what it has led to: the request that was made or the end of a reload,
the synchronizer with the state that it has published and its retry timer, and the record. -/
structure Sight (r : Resource) where
  move : Move
  progress : Progress
  machine : Machine r
  record : Option String

namespace Sight

/-- What is seen when a move is made. -/
def of (s : Scene r) (m : Move) (faults : List StoreOperation) : Sight r :=
  ⟨m, s.progress (.move m faults), (s.next (.move m faults)).machine,
    Cache.record? r (s.next (.move m faults)).store⟩

theorem of_alike {s s' : Scene r} (h : s.Alike s') (unlimited : s.store.IsUnlimited) (m : Move)
    (faults : List StoreOperation) : of s m faults = of s' m faults := by
  obtain ⟨progress, after⟩ := h.move unlimited m faults
  rw [of, of, progress, after.machine, after.store.record]

end Sight

/-- What is seen of a resource, the latest first. What others do to the store is not seen. -/
def sights : List (Incident r) → List (Sight r)
  | [] => []
  | ⟨s, .move m faults⟩ :: past => .of s m faults :: sights past
  | ⟨_, .interference _⟩ :: past => sights past

/-- The moves of a resource itself, the latest first. -/
def moves (r : Resource) (past : List Deed) : List Move :=
  past.filterMap fun d => if d.resource = r then some d.move else none

theorem sights_own (s : Stage) (m : Move) (past : List Deed) :
    sights (incidents r (⟨s, r, m⟩ :: past)) =
      .of (s.scene r) m s.store.failing :: sights (incidents r past) := by
  simp only [incidents, List.map_cons, Deed.incident, Deed.event, if_true, sights]

theorem sights_other {other : Resource} (h : other ≠ r) (s : Stage) (m : Move)
    (past : List Deed) :
    sights (incidents r (⟨s, other, m⟩ :: past)) = sights (incidents r past) := by
  simp only [incidents, List.map_cons, Deed.incident, Deed.event, if_neg h, sights]

theorem map_move_sights (past : List Deed) :
    (sights (incidents r past)).map (·.move) = moves r past := by
  induction past with
  | nil => rfl
  | cons d past ih =>
    obtain ⟨s, other, m⟩ := d
    by_cases own : other = r
    · subst own
      rw [sights_own, List.map_cons, ih]
      simp [moves, Sight.of]
    · rw [sights_other own, ih]
      simp [moves, own]

/-! ## A synchronizer by itself -/

/-- Nobody else changes the store, and it goes on to fail in the same. -/
def Alone (s : Scene r) (e : Sync.Event) : Prop := ∃ m, e = .move m s.store.failing

theorem kind_next (s : Scene r) (m : Move) (faults : List StoreOperation) :
    (s.next (.move m faults)).store.kind = s.store.kind := by
  rcases Sync.store_after (⟨s, .move m faults⟩ : Incident r) with
    ⟨e, -, -, after⟩ | ⟨-, after | ⟨after, -⟩ | event⟩
  · exact (congrArg Store.kind after).trans (Cache.kind_keep ..)
  · exact congrArg Store.kind after
  · exact (congrArg Store.kind after).trans (Cache.kind_drop ..)
  · cases event

section

variable {start start' s s' : Scene r} {past past' : List (Incident r)}

theorem Alone.kind_eq (run : Sync.Run Alone start past s) :
    s.store.kind = start.store.kind := by
  induction run with
  | nil => rfl
  | cons _ alone ih =>
    obtain ⟨m, rfl⟩ := alone
    exact (kind_next _ m _).trans ih

/-- What a synchronizer by itself does is a matter of its moves. -/
theorem Alone.unique (unlimited : start.store.IsUnlimited) (alike : start.Alike start')
    (run : Sync.Run Alone start past s) (run' : Sync.Run Alone start' past' s')
    (same : (sights past).map (·.move) = (sights past').map (·.move)) :
    sights past = sights past' ∧ s.Alike s' := by
  induction run generalizing past' s' with
  | nil =>
    cases run' with
    | nil => exact ⟨rfl, alike⟩
    | cons _ alone =>
      obtain ⟨m, rfl⟩ := alone
      cases same
  | @cons past s e run alone ih =>
    obtain ⟨m, rfl⟩ := alone
    cases run' with
    | nil => cases same
    | @cons past' s' e' run' alone' =>
      obtain ⟨m', rfl⟩ := alone'
      obtain ⟨rfl, rest⟩ : m = m' ∧ (sights past).map (·.move) = (sights past').map (·.move) :=
        List.cons.inj same
      obtain ⟨known, before⟩ := ih run' rest
      have unlimited := unlimited.congr (Alone.kind_eq run)
      rw [← before.store.failing]
      refine ⟨?_, (before.move unlimited m s.store.failing).2⟩
      rw [sights, sights, known, Sight.of_alike before unlimited]

end

/-! ## A resource in a con -/

variable {Allowed : Stage → Resource → Move → Prop} {policy : Retry.Policy}
  {hasAnnouncements : Bool} {store : Store} {past : List Deed} {s : Stage}

/-- To a resource, what another one does is nothing. -/
theorem Stage.alike_next_of_ne {other : Resource} (h : r ≠ other) (s : Stage) (m : Move) :
    ((s.next other m).scene r).Alike (s.scene r) := by
  obtain ⟨kind, failing⟩ := s.keeps_next other m
  rw [s.scene_next_of_ne h]
  exact ⟨rfl, s.record?_next_of_ne h m, failing, kind⟩

/-- A run of the con is for each resource a run by itself. -/
theorem Run.apart (unlimited : store.IsUnlimited)
    (run : Run Allowed (.new policy hasAnnouncements store) past s) (r : Resource) :
    ∃ past' s', Sync.Run Alone (.new policy store) past' s' ∧
      sights past' = sights (incidents r past) ∧ (s.scene r).Alike s' := by
  induction run with
  | nil =>
    rw [Stage.scene_new]
    exact ⟨[], _, .nil, rfl, .refl _⟩
  | @cons past s other m run _ ih =>
    obtain ⟨past', s', alone, known, before⟩ := ih
    by_cases own : other = r
    · subst own
      have unlimited := unlimited.congr run.keeps.1
      refine ⟨_, _, alone.cons ⟨m, rfl⟩, ?_, ?_⟩
      · rw [sights, sights_own, known, ← before.store.failing, Sight.of_alike before unlimited]
        rfl
      · rw [s.scene_next_self, ← before.store.failing]
        exact (before.move unlimited m s.store.failing).2
    · refine ⟨past', s', alone, ?_, (s.alike_next_of_ne (Ne.symm own) m).trans before⟩
      rw [sights_other own, known]

/-- Two runs in which a resource makes the same moves are the same for it. -/
theorem Run.sights_eq {Allowed' : Stage → Resource → Move → Prop} {hasAnnouncements' : Bool}
    {store' : Store} {past' : List Deed} {s' : Stage} (unlimited : store.IsUnlimited)
    (run : Run Allowed (.new policy hasAnnouncements store) past s)
    (run' : Run Allowed' (.new policy hasAnnouncements' store') past' s')
    (stores : store.Alike r store') (same : moves r past = moves r past') :
    sights (incidents r past) = sights (incidents r past') ∧ (s.scene r).Alike (s'.scene r) := by
  obtain ⟨own, t, alone, known, ends⟩ := run.apart unlimited r
  obtain ⟨own', t', alone', known', ends'⟩ :=
    run'.apart (unlimited.congr stores.kind.symm) r
  rw [← known, ← known']
  rw [← map_move_sights, ← map_move_sights, ← known, ← known'] at same
  have starts : (Scene.new policy store : Scene r).Alike (.new policy store') := ⟨rfl, stores⟩
  obtain ⟨seen, between⟩ := Alone.unique unlimited starts alone alone' same
  exact ⟨seen, (ends.trans between).trans ends'.symm⟩

/-! ## Readers of the whole con -/

theorem any_resources_iff (c : Convention) (p : Resource → Bool) :
    c.resources.any p = true ↔ ∃ r, c.has r = true ∧ p r = true := by
  rw [resources, List.any_filter, List.any_eq_true]
  refine exists_congr fun r => ?_
  have mem : r ∈ Resource.all := by cases r <;> decide
  rw [Bool.and_eq_true]
  exact and_iff_right mem

/-- The con counts as not found while a resource shows code 404 for the con that it has
selected. -/
theorem Run.isNotFound_iff (run : Run Allowed (.new policy hasAnnouncements store) past s) :
    s.convention.isNotFound = true ↔ ∃ r con, s.convention.has r = true ∧
      (s.scene r).sync.selected = some con ∧ (s.scene r).sync.owner = some con ∧
      (s.scene r).sync.published = .error 404 := by
  rw [isNotFound, any_resources_iff]
  refine exists_congr fun r => ?_
  have scene : Sync.Run (fun _ _ => True) (.new policy store) (incidents r past) (s.scene r) :=
    run.scene fun _ _ _ _ _ _ => trivial
  rw [exists_and_left]
  refine and_congr_right fun _ => ⟨fun notFound => ?_, fun ⟨con, selected, owner, published⟩ => ?_⟩
  · change (s.scene r).sync.isNotFound = true at notFound
    unfold Sync.isNotFound Sync.current at notFound
    split at notFound
    · rename_i same
      cases scene.sourced with
      | pending published => simp [published, Sync.Published.isNotFound] at notFound
      | success published => simp [published, Sync.Published.isNotFound] at notFound
      | @error con code published owner =>
        simp only [published, Sync.Published.isNotFound, decide_eq_true_eq] at notFound
        exact ⟨con, same.symm.trans owner, owner, notFound ▸ published⟩
    · cases notFound
  · show (s.scene r).sync.isNotFound = true
    rw [Sync.isNotFound, Sync.current, if_pos (owner.trans selected.symm), published]
    rfl

/-- The con counts as retrying while a retry timer of a resource runs. -/
theorem isRetrying_iff (s : Stage) :
    s.convention.isRetrying = true ↔ ∃ r ends, s.convention.has r = true ∧
      (s.scene r).sync.retry.timer = some ends := by
  rw [isRetrying, any_resources_iff]
  refine exists_congr fun r => ?_
  rw [exists_and_left, ← Option.isSome_iff_exists]
  rfl

/-! ## By themselves -/

/-- **The resources of a con do not interfere.** Over a store without a quota, whatever the con and
its resources are asked for in any order and however the server answers: what is seen of a resource,
its published states and its timer, its requests with their etags, the ends of its reloads and its
record, is what is seen of a synchronizer by itself that makes the same moves; in any other run in
which it makes the same moves it is the same, however different the answers for the other resources
and their records are; and the con counts as not found, or as retrying, exactly if one of its
resources shows code 404 for the con that it has selected, or has a timer that runs. -/
theorem resources_do_not_interfere (unlimited : store.IsUnlimited)
    (run : Run Allowed (.new policy hasAnnouncements store) past s) :
    (∀ r, ∃ past' s', Sync.Run Alone (.new policy store) past' s' ∧
      sights past' = sights (incidents r past) ∧ (s.scene r).Alike s') ∧
    (∀ r hasAnnouncements' store' past' s', store.Alike r store' →
      Run (fun _ _ _ => True) (.new policy hasAnnouncements' store') past' s' →
      moves r past = moves r past' →
      sights (incidents r past) = sights (incidents r past') ∧
        (s.scene r).Alike (s'.scene r)) ∧
    (s.convention.isNotFound = true ↔ ∃ r con, s.convention.has r = true ∧
      (s.scene r).sync.selected = some con ∧ (s.scene r).sync.owner = some con ∧
      (s.scene r).sync.published = .error 404) ∧
    (s.convention.isRetrying = true ↔ ∃ r ends, s.convention.has r = true ∧
      (s.scene r).sync.retry.timer = some ends) :=
  ⟨run.apart unlimited, fun _ _ _ _ _ stores run' => run.sights_eq unlimited run' stores,
    run.isNotFound_iff, isRetrying_iff s⟩

/-- There are no events of the con and the pages come stale: the con counts as not found and is
retrying, and of the pages the same is seen as if the events were never answered. -/
theorem missing_events_leave_pages :
    let asked := ((Stage.new .standard true { kind := .database }).next .events
      (.activate "a")).next .pages (.activate "a")
    let answer : Move := .answer 0 0 (.success (.array []) none true)
    let s := (asked.next .events (.answer 0 0 (.error 404))).next .pages answer
    let s' := asked.next .pages answer
    (∃ past, Run (fun _ _ _ => True) (.new .standard true { kind := .database }) past s ∧
      ∃ past', Run (fun _ _ _ => True) (.new .standard true { kind := .database }) past' s' ∧
      sights (incidents .pages past) = sights (incidents .pages past') ∧
      (s.scene .pages).Alike (s'.scene .pages)) ∧
    s.convention.isNotFound = true ∧ s.convention.isRetrying = true := by
  intro asked answer s s'
  have asks : Run (fun _ _ _ => True) (.new .standard true { kind := .database }) _ asked :=
    (Run.nil.cons trivial).cons trivial
  have run : Run _ _ _ s := (asks.cons trivial).cons trivial
  have run' : Run _ _ _ s' := asks.cons trivial
  have unlimited : (⟨.database, [], []⟩ : Store).IsUnlimited := nofun
  obtain ⟨-, same, notFound, retrying⟩ := resources_do_not_interfere unlimited run
  refine ⟨⟨_, run, _, run', same .pages _ _ _ _ (.refl _ _) run' rfl⟩, ?_, ?_⟩
  · exact notFound.2 ⟨.events, "a", rfl, rfl, rfl, rfl⟩
  · exact retrying.2 ⟨.pages, _, rfl, rfl⟩

end OfflineSchedule.Convention
