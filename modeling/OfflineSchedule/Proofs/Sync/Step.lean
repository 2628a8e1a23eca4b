import Mathlib.Logic.Relation
import OfflineSchedule.Sync.Machine
/-!
# What a step consists of

A scene is a store together with the synchronizer that works on it. What happens next, a move of
the synchronizer or a change of the store by somebody else, takes it to another scene in a few acts
(`Act`), each of which says exactly what it does, and `acts_next` says that there are no others.
What every act preserves is therefore preserved by every step, whatever move it is.
-/

namespace OfflineSchedule.Sync

open Http (Outcome)
open Json (Value)
open Relation (ReflTransGen)
open Retry (Moment Policy)

variable {r : Resource}

/-! ## Selecting, finding and asking -/

theorem select_of_selected {con : String} {y : Sync r} (h : y.selected = some con) :
    y.select con = y := if_pos h

@[simp] theorem selected_select (con : String) (y : Sync r) :
    (y.select con).selected = some con := by
  unfold select
  split
  · assumption
  · rfl

@[simp] theorem shown_select (con : String) (y : Sync r) : (y.select con).shown = y.shown := by
  unfold select
  split <;> rfl

@[simp] theorem owner_select (con : String) (y : Sync r) : (y.select con).owner = y.owner := by
  unfold select
  split <;> rfl

@[simp] theorem issued_select (con : String) (y : Sync r) : (y.select con).issued = y.issued := by
  unfold select
  split <;> rfl

@[simp] theorem published_select (con : String) (y : Sync r) :
    (y.select con).published = y.published := by
  unfold select
  split <;> rfl

@[simp] theorem revalidated_select (con : String) (y : Sync r) :
    (y.select con).revalidated = y.revalidated := by
  unfold select
  split <;> rfl

/-- The synchronizer after it has shown a cached value of a con. -/
def found (con : String) (value : r.Live) (etag : Option String) (y : Sync r) : Sync r :=
  { (y.select con).display con value etag with issued := y.issued + 1, revalidated := true }

/-- The synchronizer after it has made a request for a con. -/
def begun (con : String) (y : Sync r) : Sync r :=
  { y.select con with issued := y.issued + 1, retry := (y.select con).retry.cancelPending }

@[simp] theorem selected_found (con : String) (value : r.Live) (etag : Option String)
    (y : Sync r) : (y.found con value etag).selected = some con := selected_select con y

@[simp] theorem selected_begun (con : String) (y : Sync r) :
    (y.begun con).selected = some con := selected_select con y

@[simp] theorem owner_begun (con : String) (y : Sync r) : (y.begun con).owner = y.owner :=
  owner_select con y

@[simp] theorem published_begun (con : String) (y : Sync r) :
    (y.begun con).published = y.published := published_select con y

/-- The request that is made for a con. -/
def request (con : String) (store : Store) (y : Sync r) : Flight :=
  ⟨con, y.issued + 1, Cache.etag? r store con⟩

theorem issue_of_selected {con : String} {y : Sync r} (h : y.selected = some con) (store : Store) :
    y.issue store = some (y.request con store, y.begun con) := by
  rw [begun, select_of_selected h]
  simp [issue, request, h]

theorem issue_of_unselected {y : Sync r} (h : y.selected = none) (store : Store) :
    y.issue store = none := by
  simp [issue, h]

/-- The request after a con was selected. -/
theorem issue_select (con : String) (store : Store) (y : Sync r) :
    (y.select con).issue store = some (y.request con store, y.begun con) := by
  rw [issue_of_selected (selected_select con y), begun, begun,
    select_of_selected (selected_select con y)]
  simp [request]

theorem job?_reload {m m' : Machine r} {store : Store} {ticket : Nat} {f : Flight}
    (h : m.reload store = (.sent ticket f, m')) : m'.job? ticket = some (.fetching f) := by
  unfold Machine.reload at h
  split at h
  · cases h
  · cases h
    exact (Machine.job?_setJob _ _ _ _).trans (if_pos rfl)

theorem activate_cases (con : String) (store : Store) (y : Sync r) :
    y.isShowing con = true ∧ y.activate con store = (.unchanged, y) ∨
    y.isShowing con = false ∧ Cache.usable? r store con = none ∧
      y.activate con store = (.missed, y.select con) ∨
    ∃ value etag, y.isShowing con = false ∧ Cache.usable? r store con = some (value, etag) ∧
      y.activate con store = (.cached !y.revalidated, y.found con value etag) := by
  unfold activate
  cases hs : y.isShowing con with
  | true => exact .inl ⟨rfl, rfl⟩
  | false =>
    cases hu : Cache.usable? r store con with
    | none => exact .inr (.inl ⟨rfl, rfl, rfl⟩)
    | some p => exact .inr (.inr ⟨p.1, p.2, rfl, rfl, by simp [found]⟩)

/-! ## How an answer ends a reload -/

/-- The ends that an answer `o` can put to the reload with the request `f`: how the reload ends,
and the store and the synchronizer afterwards. -/
inductive Settled (policy : Policy) (now : Moment) (f : Flight) (o : Outcome Value)
    (store : Store) (y : Sync r) : Reload → Store → Sync r → Prop where
  | superseded (late : y.isLatest f = false) : Settled policy now f o store y .superseded store y
  | updated {payload : Value} {value : r.Live} {etag : Option String} {stale : Bool}
      (answer : o = .success payload etag stale) (decoded : r.liveOfValue payload = .ok value)
      (latest : y.isLatest f = true) :
      Settled policy now f o store y (.updated stale)
        (if stale then store else Cache.keep r store f.con value etag)
        (y.receive policy now f value etag stale)
  | notModified {value : r.Live} {etag : Option String} (answer : o = .notModified)
      (usable : Cache.usable? r store f.con = some (value, etag)) (latest : y.isLatest f = true) :
      Settled policy now f o store y .notModified store (y.confirm f value etag)
  | failed {code : Nat} (latest : y.isLatest f = true) :
      Settled policy now f o store y (.failed code) store (y.fail f code)

theorem settleFailure_settled {policy : Policy} {now : Moment} {f : Flight} {store : Store}
    {y : Sync r} (o : Outcome Value) (code : Nat) :
    ∃ reload y', y.settleFailure f code = (.ended reload, y') ∧
      Settled policy now f o store y reload store y' := by
  unfold settleFailure
  cases h : y.isLatest f with
  | true => exact ⟨_, _, rfl, .failed h⟩
  | false => exact ⟨_, _, rfl, .superseded h⟩

/-- An answer either ends the reload, or it confirms what the cache does not have, and the same
request is made again without its condition. -/
theorem answer_cases (policy : Policy) (now : Moment) (f : Flight) (o : Outcome Value)
    (store : Store) (y : Sync r) :
    (∃ reload store' y', y.answer policy now f o store = (.ended reload, store', y') ∧
      Settled policy now f o store y reload store' y') ∨
    y.answer policy now f o store = (.again { f with etag := none }, Cache.drop r store, y) ∧
      o = .notModified ∧ Cache.usable? r store f.con = none ∧ f.etag.isSome = true := by
  cases o with
  | success payload etag stale =>
    left
    cases hd : r.liveOfValue payload with
    | ok value =>
      cases h : y.isLatest f with
      | true => exact ⟨_, _, _, by simp [answer, hd, h], .updated rfl hd h⟩
      | false => exact ⟨_, _, _, by simp [answer, hd, h], .superseded h⟩
    | error e =>
      obtain ⟨reload, y', he, hs⟩ :=
        settleFailure_settled (y := y) (.success payload etag stale) Http.transportCode
      exact ⟨reload, store, y', by simp [answer, hd, he], hs⟩
  | notModified =>
    cases hu : Cache.usable? r store f.con with
    | some p =>
      left
      cases h : y.isLatest f with
      | true => exact ⟨_, _, _, by simp [answer, hu, h], .notModified rfl hu h⟩
      | false => exact ⟨_, _, _, by simp [answer, hu, h], .superseded h⟩
    | none =>
      cases ha : f.etag.isSome with
      | true => exact .inr ⟨by simp [answer, hu, ha], rfl, rfl, rfl⟩
      | false =>
        left
        obtain ⟨reload, y', he, hs⟩ :=
          settleFailure_settled (y := y) .notModified notModifiedCode
        exact ⟨reload, store, y', by simp [answer, hu, ha, he], hs⟩
  | error code =>
    left
    obtain ⟨reload, y', he, hs⟩ := settleFailure_settled (y := y) (.error code) code
    exact ⟨reload, store, y', by simp [answer, he], hs⟩

/-! ## Scenes -/

structure Scene (r : Resource) where
  store : Store
  machine : Machine r

/-- What happens in a run. -/
inductive Event where
  /-- A move of the synchronizer. If it looks into the cache before it makes a request, the
  operations in `faults` fail by the time of the request. -/
  | move (e : Move) (faults : List StoreOperation)
  /-- Somebody else changes the store, or other operations of it begin to fail. -/
  | interference (store : Store)

namespace Scene

/-- A synchronizer that nothing has happened to yet. -/
def new (policy : Policy) (store : Store) : Scene r := ⟨store, { policy }⟩

abbrev sync (s : Scene r) : Sync r := s.machine.sync

/-- The reload of a ticket waits for the answer to `f`. -/
def Waits (ticket : Nat) (f : Flight) (s : Scene r) : Prop :=
  s.machine.job? ticket = some (.fetching f)

instance (ticket : Nat) (f : Flight) (s : Scene r) : Decidable (s.Waits ticket f) :=
  inferInstanceAs (Decidable (_ = _))

def perform (e : Event) (s : Scene r) : Progress × Scene r :=
  match e with
  | .move e faults =>
    let (p, store, machine) := s.machine.step e s.store faults
    (p, ⟨store, machine⟩)
  | .interference store => (.done, { s with store })

/-- The scene after an event. -/
def next (e : Event) (s : Scene r) : Scene r := (s.perform e).2

/-- What the event leads to for whoever caused it. -/
def progress (e : Event) (s : Scene r) : Progress := (s.perform e).1

end Scene

/-- Something that has happened: an event, and the scene before it. -/
structure Incident (r : Resource) where
  before : Scene r
  event : Event

namespace Incident

def after (i : Incident r) : Scene r := i.before.next i.event

def progress (i : Incident r) : Progress := i.before.progress i.event

end Incident

/-! ## Acts -/

/-- What can happen to a scene as an act of the incident `i`. -/
inductive Act (i : Incident r) : Scene r → Scene r → Prop where
  /-- A con is activated whose cached value can be used, and is put on display. -/
  | found {s : Scene r} {con : String} {value : r.Live} {etag : Option String}
      (first : s = i.before) (hidden : s.sync.isShowing con = false)
      (usable : Cache.usable? r s.store con = some (value, etag)) :
      Act i s ⟨s.store, { s.machine with sync := s.sync.found con value etag }⟩
  /-- A reload is left to the background. -/
  | queued {s : Scene r} : Act i s ⟨s.store, (s.machine.addJob .queued).2⟩
  /-- A reload makes its request for a con, which is selected already or has just been looked for
  in the cache in vain. -/
  | begun {s : Scene r} {con : String} (faults : List StoreOperation)
      (why : s.sync.selected = some con ∨ s = i.before ∧ Cache.usable? r s.store con = none) :
      Act i s ⟨s.store, ({ s.machine with sync := s.sync.begun con }.addJob
        (.fetching (s.sync.request con { s.store with failing := faults }))).2⟩
  /-- A reload in the background makes its request. -/
  | started {s : Scene r} {con : String} {ticket : Nat}
      (queued : s.machine.job? ticket = some .queued) (selected : s.sync.selected = some con) :
      Act i s ⟨s.store, { s.machine with sync := s.sync.begun con }.setJob ticket
        (.fetching (s.sync.request con s.store))⟩
  /-- A reload ends without an answer. -/
  | abandoned {s : Scene r} {ticket : Nat} : Act i s ⟨s.store, s.machine.endJob ticket⟩
  /-- An answer ends a reload. -/
  | settled {s : Scene r} {ticket : Nat} {now : Moment} {o : Outcome Value}
      {faults : List StoreOperation} {f : Flight} {reload : Reload} {store : Store} {sync : Sync r}
      (event : i.event = .move (.answer ticket now o) faults) (first : s = i.before)
      (waited : s.Waits ticket f) (progress : i.progress = .ended reload)
      (settled : Settled s.machine.policy now f o s.store s.sync reload store sync) :
      Act i s ⟨store, { s.machine with sync }.endJob ticket⟩
  /-- A confirmation finds nothing to confirm, so that the request is made again. -/
  | again {s : Scene r} {ticket : Nat} {now : Moment} {faults : List StoreOperation} {f : Flight}
      (event : i.event = .move (.answer ticket now .notModified) faults) (first : s = i.before)
      (waited : s.Waits ticket f) (progress : i.progress = .sent ticket { f with etag := none })
      (unusable : Cache.usable? r s.store f.con = none) (asked : f.etag.isSome = true) :
      Act i s ⟨Cache.drop r s.store, s.machine.setJob ticket (.fetching { f with etag := none })⟩
  | cleared {s : Scene r} {faults : List StoreOperation} (event : i.event = .move .clear faults) :
      Act i s ⟨Cache.drop r s.store, s.machine⟩
  /-- The retries are shut down. -/
  | stopped {s : Scene r} {faults : List StoreOperation}
      (event : i.event = .move .shutdown faults) :
      Act i s ⟨s.store, { s.machine with sync := s.sync.resetRetry }⟩
  /-- The retry timer ends and leaves a trigger. -/
  | fired {s : Scene r} {faults : List StoreOperation} (event : i.event = .move .fire faults)
      (pending : s.sync.isRetrying = true) :
      Act i s ⟨s.store, { s.machine with
        sync := { s.sync with retry := s.sync.retry.cancelPending }
        triggers := s.machine.triggers + 1 }⟩
  /-- The retry loop takes up a trigger. -/
  | taken {s : Scene r} {faults : List StoreOperation} (event : i.event = .move .retry faults)
      (free : s.machine.loop = none) (waiting : s.machine.triggers ≠ 0) :
      Act i s ⟨s.store, { s.machine with triggers := s.machine.triggers - 1 }⟩
  /-- The retry loop waits for the reload that it has begun. -/
  | looped {s : Scene r} {faults : List StoreOperation} {ticket : Nat} {f : Flight}
      (event : i.event = .move .retry faults) (waits : s.Waits ticket f) :
      Act i s ⟨s.store, { s.machine with loop := some ticket }⟩
  | interfered {s : Scene r} {store : Store} (event : i.event = .interference store)
      (first : s = i.before) : Act i s { s with store }

namespace Act

variable {i : Incident r} {s : Scene r}

/-- Acts that lead from one scene to another. -/
abbrev Chain (i : Incident r) : Scene r → Scene r → Prop := ReflTransGen (Act i)

theorem chain_reload (faults : List StoreOperation) :
    Chain i s ⟨s.store, (s.machine.reload { s.store with failing := faults }).2⟩ := by
  unfold Machine.reload
  cases h : s.sync.selected with
  | none => rw [issue_of_unselected h]
  | some con =>
    rw [issue_of_selected h]
    exact .single (.begun faults (.inl h))

theorem chain_activate (con : String) (faults : List StoreOperation) (first : s = i.before) :
    Chain i s ⟨s.store, (s.machine.activate con s.store faults).2⟩ := by
  unfold Machine.activate
  rcases activate_cases con s.store s.sync with ⟨-, ha⟩ | ⟨-, hu, ha⟩ | ⟨value, etag, hs, hu, ha⟩
  · rw [ha]
  · rw [ha]
    simp only [Machine.reload, issue_select]
    exact .single (.begun faults (.inr ⟨first, hu⟩))
  · rw [ha]
    have found := ReflTransGen.single (Act.found first hs hu)
    cases s.sync.revalidated with
    | true => exact found
    | false => exact found.tail .queued

theorem chain_refresh (con : String) (faults : List StoreOperation) (first : s = i.before) :
    Chain i s ⟨s.store, (s.machine.refresh con s.store faults).2⟩ := by
  have ha := chain_activate (i := i) con faults first
  unfold Machine.refresh
  split <;> rename_i h
  · rwa [h] at ha
  · rw [h] at ha
    exact ha.trans (chain_reload faults)
  · rw [h] at ha
    exact ha.trans (chain_reload faults)
  · exact ha

theorem chain_start (ticket : Nat) :
    Chain i s ⟨s.store, (s.machine.start ticket s.store).2⟩ := by
  unfold Machine.start
  split
  · rename_i queued
    cases h : s.sync.selected with
    | none =>
      rw [issue_of_unselected h]
      exact .single .abandoned
    | some con =>
      rw [issue_of_selected h]
      exact .single (.started queued h)
  · exact .refl

theorem chain_retry {faults : List StoreOperation} (event : i.event = .move .retry faults) :
    Chain i s ⟨s.store, (s.machine.retry s.store).2⟩ := by
  unfold Machine.retry
  split
  · exact .refl
  · rename_i free
    simp only [Bool.or_eq_true, decide_eq_true_eq, not_or, Option.not_isSome_iff_eq_none] at free
    have ht : Act i s ⟨s.store, { s.machine with triggers := s.machine.triggers - 1 }⟩ :=
      .taken event free.1 free.2
    have hr := ReflTransGen.head ht (chain_reload s.store.failing)
    split <;> rename_i h
    · have waits := job?_reload h
      rw [h] at hr
      exact hr.tail (.looped event waits)
    · exact hr

theorem chain_fire {faults : List StoreOperation} (event : i.event = .move .fire faults) :
    Chain i s ⟨s.store, s.machine.fire⟩ := by
  unfold Machine.fire
  split
  · rename_i pending
    exact .single (.fired event pending)
  · exact .refl

theorem chain_answer {ticket : Nat} {now : Moment} {o : Outcome Value}
    {faults : List StoreOperation} (event : i.event = .move (.answer ticket now o) faults)
    (first : s = i.before) : Chain i s (s.next i.event) := by
  subst first
  have hn : i.before.next i.event = ⟨(i.before.machine.answer ticket now o i.before.store).2.1,
      (i.before.machine.answer ticket now o i.before.store).2.2⟩ := by
    rw [event]; rfl
  have hp : i.progress = (i.before.machine.answer ticket now o i.before.store).1 := by
    rw [Incident.progress, event]; rfl
  rw [hn]
  unfold Machine.answer at hp ⊢
  split at hp
  · rename_i f hw
    rcases answer_cases i.before.machine.policy now f o i.before.store i.before.machine.sync with
      ⟨reload, store', y, ha, hs⟩ | ⟨ha, ho, hu, he⟩
    · rw [ha] at hp ⊢
      exact .single (.settled event rfl hw hp hs)
    · rw [ha] at hp ⊢
      subst ho
      exact .single (.again event rfl hw hp hu he)
  · exact .refl

end Act

/-- Nothing but acts happens in a step. -/
theorem acts_next (s : Scene r) (e : Event) : Act.Chain ⟨s, e⟩ s (s.next e) := by
  cases e with
  | interference store => exact .single (.interfered rfl rfl)
  | move e faults =>
    cases e with
    | activate con => exact Act.chain_activate con faults rfl
    | refresh con => exact Act.chain_refresh con faults rfl
    | reload => exact Act.chain_reload s.store.failing
    | clear => exact .single (.cleared rfl)
    | shutdown => exact .single (.stopped rfl)
    | start ticket => exact Act.chain_start ticket
    | answer ticket now o => exact Act.chain_answer rfl rfl
    | abandon ticket => exact .single .abandoned
    | fire => exact Act.chain_fire rfl
    | retry => exact Act.chain_retry rfl

/-- What no act of an event destroys holds after it. -/
theorem acts_induction {s : Scene r} {e : Event} {I : Scene r → Prop} (init : I s)
    (act : ∀ a b, Act ⟨s, e⟩ a b → I a → I b) : I (s.next e) := by
  have chain : ∀ s', Act.Chain ⟨s, e⟩ s s' → I s' := by
    intro s' h
    induction h with
    | refl => exact init
    | tail _ h ih => exact act _ _ h ih
  exact chain _ (acts_next s e)

/-! ## How reloads end -/

theorem waits_or_idle (s : Scene r) (ticket : Nat) :
    (∃ f, s.Waits ticket f) ∨ ∀ f, ¬ s.Waits ticket f :=
  (Classical.em _).imp_right not_exists.1

theorem perform_answer {s : Scene r} {ticket : Nat} {f : Flight} (waited : s.Waits ticket f)
    (now : Moment) (o : Outcome Value) (faults : List StoreOperation) :
    s.perform (.move (.answer ticket now o) faults) =
      match s.sync.answer s.machine.policy now f o s.store with
      | (.ended reload, store, sync) =>
        (.ended reload, ⟨store, { s.machine with sync }.endJob ticket⟩)
      | (.again f, store, sync) =>
        (.sent ticket f, ⟨store, { s.machine with sync }.setJob ticket (.fetching f)⟩) := by
  have hw : s.machine.job? ticket = some (.fetching f) := waited
  simp only [Scene.perform, Machine.step, Machine.answer, hw]
  rcases s.sync.answer s.machine.policy now f o s.store with ⟨verdict, store, sync⟩
  cases verdict <;> rfl

theorem perform_answer_idle {s : Scene r} {ticket : Nat} (idle : ∀ f, ¬ s.Waits ticket f)
    (now : Moment) (o : Outcome Value) (faults : List StoreOperation) :
    s.perform (.move (.answer ticket now o) faults) = (.done, s) := by
  simp only [Scene.perform, Machine.step, Machine.answer]
  split
  · rename_i f waited
    exact absurd waited (idle f)
  · rfl

/-- An answer ends the reload that waits for it, or the reload makes its request again. -/
theorem next_answer {s : Scene r} {ticket : Nat} {f : Flight} (waited : s.Waits ticket f)
    (now : Moment) (o : Outcome Value) (faults : List StoreOperation) :
    let e := Event.move (.answer ticket now o) faults
    (∃ reload, s.progress e = .ended reload ∧
      Settled s.machine.policy now f o s.store s.sync reload (s.next e).store (s.next e).sync) ∨
    s.progress e = .sent ticket { f with etag := none } ∧ o = .notModified ∧
      Cache.usable? r s.store f.con = none ∧ (s.next e).store = Cache.drop r s.store ∧
      (s.next e).sync = s.sync := by
  intro e
  unfold Scene.progress Scene.next
  rw [perform_answer waited]
  rcases answer_cases s.machine.policy now f o s.store s.sync with
    ⟨reload, store, y, ha, settled⟩ | ⟨ha, ho, hu, -⟩
  · rw [ha]
    exact .inl ⟨reload, rfl, settled⟩
  · rw [ha]
    exact .inr ⟨rfl, ho, hu, rfl, rfl⟩

/-- A request is made again because it had a condition, and there is nothing to confirm. -/
theorem asked_of_again {s : Scene r} {ticket : Nat} {f g : Flight} (waited : s.Waits ticket f)
    {now : Moment} {o : Outcome Value} {faults : List StoreOperation}
    (again : s.progress (.move (.answer ticket now o) faults) = .sent ticket g) :
    f.etag.isSome = true ∧ Cache.usable? r s.store f.con = none := by
  unfold Scene.progress at again
  rw [perform_answer waited] at again
  rcases answer_cases s.machine.policy now f o s.store s.sync with
    ⟨reload, store, y, ha, -⟩ | ⟨-, -, unusable, asked⟩
  · rw [ha] at again
    cases again
  · exact ⟨asked, unusable⟩

/-- After an answer its reload waits if the answer has led to another request. -/
theorem waits_answered {s : Scene r} {ticket : Nat} {f : Flight} (waited : s.Waits ticket f)
    (now : Moment) (o : Outcome Value) (faults : List StoreOperation) (g : Flight) :
    let e := Event.move (.answer ticket now o) faults
    (s.next e).Waits ticket g ↔ s.progress e = .sent ticket g := by
  intro e
  unfold Scene.Waits Scene.progress Scene.next
  rw [perform_answer waited]
  split
  · simp [Machine.job?_endJob]
  · simp [Machine.job?_setJob]

/-- An answer to one reload leaves the others waiting. -/
theorem waits_beside_answer {s : Scene r} {ticket k : Nat} (other : k ≠ ticket) (now : Moment)
    (o : Outcome Value) (faults : List StoreOperation) (g : Flight) :
    (s.next (.move (.answer ticket now o) faults)).Waits k g ↔ s.Waits k g := by
  rcases waits_or_idle s ticket with ⟨f, waited⟩ | idle
  · unfold Scene.Waits Scene.next
    rw [perform_answer waited]
    split
    · rw [Machine.job?_endJob, if_neg other]
      rfl
    · rw [Machine.job?_setJob, if_neg other]
      rfl
  · rw [Scene.next, perform_answer_idle idle]

/-- Whoever waits after an answer has waited before, for the same con and under the same number. -/
theorem waits_before_answer {s : Scene r} {ticket k : Nat} {now : Moment} {o : Outcome Value}
    {faults : List StoreOperation} {g : Flight}
    (waits : (s.next (.move (.answer ticket now o) faults)).Waits k g) :
    ∃ f, s.Waits k f ∧ f.con = g.con ∧ f.number = g.number := by
  by_cases hk : k = ticket
  · subst hk
    rcases waits_or_idle s k with ⟨f, waited⟩ | idle
    · have sent := (waits_answered waited now o faults g).1 waits
      rcases next_answer waited now o faults with ⟨reload, ended, -⟩ | ⟨sent', -⟩
      · exact nomatch ended.symm.trans sent
      · cases sent'.symm.trans sent
        exact ⟨f, waited, rfl, rfl⟩
    · rw [Scene.next, perform_answer_idle idle] at waits
      exact ⟨g, waits, rfl, rfl⟩
  · exact ⟨g, (waits_beside_answer hk now o faults g).1 waits, rfl, rfl⟩

/-- An answer changes neither the policy nor the ticket that is given out next. -/
theorem machine_answer (s : Scene r) (ticket : Nat) (now : Moment) (o : Outcome Value)
    (faults : List StoreOperation) :
    let s' := s.next (.move (.answer ticket now o) faults)
    s'.machine.policy = s.machine.policy ∧ s'.machine.nextTicket = s.machine.nextTicket := by
  rcases waits_or_idle s ticket with ⟨f, waited⟩ | idle
  · unfold Scene.next
    rw [perform_answer waited]
    split <;> exact ⟨rfl, rfl⟩
  · simp [Scene.next, perform_answer_idle idle]

theorem reload_ended {m : Machine r} {store : Store} {reload : Reload}
    (h : (m.reload store).1 = .ended reload) : reload = .noInstance := by
  unfold Machine.reload at h
  split at h
  · cases h
    rfl
  · cases h

theorem activate_ended {m : Machine r} {con : String} {store : Store} {faults : List StoreOperation}
    {reload : Reload} (h : (m.activate con store faults).1 = .ended reload) :
    reload = .noInstance := by
  unfold Machine.activate at h
  split at h
  · cases h
  · exact reload_ended h
  · cases h
  · cases h

/-- Unless no con has been selected, a reload ends by an answer to its request. -/
theorem exists_answer_of_ended {s : Scene r} {e : Event} {reload : Reload}
    (ended : s.progress e = .ended reload) (begun : reload ≠ .noInstance) :
    ∃ ticket now o faults f, e = .move (.answer ticket now o) faults ∧ s.Waits ticket f ∧
      Settled s.machine.policy now f o s.store s.sync reload (s.next e).store (s.next e).sync := by
  cases e with
  | interference store => cases ended
  | move e faults =>
    cases e with
    | answer ticket now o =>
      simp only [Scene.progress, Scene.next, Scene.perform, Machine.step, Machine.answer] at ended ⊢
      split at ended
      · rename_i f waited
        rcases answer_cases s.machine.policy now f o s.store s.sync with
          ⟨reload', store, y, ha, hs⟩ | ⟨ha, -⟩
        · simp only [ha] at ended ⊢
          cases ended
          exact ⟨ticket, now, o, faults, f, rfl, waited, hs⟩
        · simp only [ha] at ended
          cases ended
      · cases ended
    | activate con => exact absurd (activate_ended ended) begun
    | refresh con =>
      simp only [Scene.progress, Scene.perform, Machine.step, Machine.beside, Machine.refresh]
        at ended
      split at ended
      · cases ended
      · exact absurd (reload_ended ended) begun
      · exact absurd (reload_ended ended) begun
      · exact absurd (activate_ended ended) begun
    | reload => exact absurd (reload_ended ended) begun
    | start ticket =>
      simp only [Scene.progress, Scene.perform, Machine.step, Machine.beside, Machine.start]
        at ended
      split at ended
      · split at ended
        · cases ended
          exact absurd rfl begun
        · cases ended
      · cases ended
    | retry =>
      simp only [Scene.progress, Scene.perform, Machine.step, Machine.beside, Machine.retry]
        at ended
      split at ended
      · cases ended
      · split at ended
        · cases ended
        · exact absurd (reload_ended ended) begun
    | clear => cases ended
    | shutdown => cases ended
    | abandon ticket => cases ended
    | fire => cases ended

/-! ## How requests are made -/

theorem next_reload {s : Scene r} {con : String} (selected : s.sync.selected = some con)
    (faults : List StoreOperation) :
    s.next (.move .reload faults) = ⟨s.store,
      ({ s.machine with sync := s.sync.begun con }.addJob
        (.fetching (s.sync.request con s.store))).2⟩ := by
  simp [Scene.next, Scene.perform, Machine.step, Machine.beside, Machine.reload,
    issue_of_selected selected]

theorem sync_next_reload {s : Scene r} {con : String} (selected : s.sync.selected = some con)
    (faults : List StoreOperation) : (s.next (.move .reload faults)).sync = s.sync.begun con := by
  rw [next_reload selected]
  rfl

/-- A reload gets the next ticket, and all others wait as before. -/
theorem waits_next_reload {s : Scene r} {con : String} (selected : s.sync.selected = some con)
    (faults : List StoreOperation) (k : Nat) (f : Flight) :
    (s.next (.move .reload faults)).Waits k f ↔
      if k = s.machine.nextTicket then s.sync.request con s.store = f else s.Waits k f := by
  rw [next_reload selected]
  unfold Scene.Waits Machine.addJob
  show Machine.job? k (Machine.setJob _ _ _) = _ ↔ _
  rw [Machine.job?_setJob]
  split
  · simp
  · rfl

theorem reload_sent {m : Machine r} {store : Store} {k : Nat} {f : Flight}
    (h : (m.reload store).1 = .sent k f) :
    m.sync.selected = some f.con ∧ f.etag = Cache.etag? r store f.con := by
  unfold Machine.reload at h
  cases hs : m.sync.selected with
  | none =>
    rw [issue_of_unselected hs] at h
    cases h
  | some con =>
    rw [issue_of_selected hs] at h
    cases h
    exact ⟨rfl, rfl⟩

theorem activate_sent {m : Machine r} {con : String} {store : Store} {faults : List StoreOperation}
    {k : Nat} {f : Flight} (h : (m.activate con store faults).1 = .sent k f) :
    f.etag = Cache.etag? r { store with failing := faults } f.con := by
  unfold Machine.activate at h
  split at h
  · cases h
  · exact (reload_sent h).2
  · cases h
  · cases h

/-- A request is made under the etag that the store has for its con by the time that the request is
made, and the store stays as it is, or the request is made again without a condition. -/
theorem sent_cases {s : Scene r} {e : Event} {k : Nat} {f : Flight}
    (sent : s.progress e = .sent k f) :
    (∃ faults, (faults = s.store.failing ∨ ∃ m, e = .move m faults) ∧
      f.etag = Cache.etag? r { s.store with failing := faults } f.con ∧
      (s.next e).store = s.store) ∨
    f.etag = none ∧ ∃ ticket now faults, e = .move (.answer ticket now .notModified) faults := by
  cases e with
  | interference store => cases sent
  | move e faults =>
    cases e with
    | activate con => exact .inl ⟨faults, .inr ⟨_, rfl⟩, activate_sent sent, rfl⟩
    | refresh con =>
      refine .inl ⟨faults, .inr ⟨_, rfl⟩, ?_, rfl⟩
      simp only [Scene.progress, Scene.perform, Machine.step, Machine.beside, Machine.refresh]
        at sent
      split at sent
      · cases sent
      · exact (reload_sent sent).2
      · exact (reload_sent sent).2
      · exact activate_sent sent
    | reload => exact .inl ⟨s.store.failing, .inl rfl, (reload_sent sent).2, rfl⟩
    | start ticket =>
      refine .inl ⟨s.store.failing, .inl rfl, ?_, rfl⟩
      simp only [Scene.progress, Scene.perform, Machine.step, Machine.beside, Machine.start] at sent
      split at sent
      · cases hs : s.machine.sync.selected with
        | none =>
          rw [issue_of_unselected hs] at sent
          cases sent
        | some con =>
          rw [issue_of_selected hs] at sent
          cases sent
          rfl
      · cases sent
    | retry =>
      refine .inl ⟨s.store.failing, .inl rfl, ?_, rfl⟩
      simp only [Scene.progress, Scene.perform, Machine.step, Machine.beside, Machine.retry] at sent
      split at sent
      · cases sent
      · split at sent
        · rename_i h
          cases sent
          exact (reload_sent (congrArg Prod.fst h)).2
        · exact (reload_sent sent).2
    | answer ticket now o =>
      right
      simp only [Scene.progress, Scene.perform, Machine.step, Machine.answer] at sent
      split at sent
      · rename_i g _
        rcases answer_cases s.machine.policy now g o s.store s.machine.sync with
          ⟨reload, store, y, ha, -⟩ | ⟨ha, rfl, -⟩
        · rw [ha] at sent
          cases sent
        · rw [ha] at sent
          cases sent
          exact ⟨rfl, _, now, faults, rfl⟩
      · cases sent
    | clear => cases sent
    | shutdown => cases sent
    | abandon ticket => cases sent
    | fire => cases sent

/-- A reload that is left to the background makes its request for the con that is selected. -/
theorem start_queued {s : Scene r} {ticket : Nat} {con : String}
    (queued : s.machine.job? ticket = some .queued) (selected : s.sync.selected = some con)
    (faults : List StoreOperation) :
    s.progress (.move (.start ticket) faults) = .sent ticket (s.sync.request con s.store) := by
  simp [Scene.progress, Scene.perform, Machine.step, Machine.beside, Machine.start, queued,
    issue_of_selected selected]

/-! ## Who waits -/

theorem reload_waits {m : Machine r} {store : Store} {k : Nat} {f : Flight}
    (waits : (m.reload store).2.job? k = some (.fetching f)) :
    (m.reload store).1 = .sent k f ∨ m.job? k = some (.fetching f) := by
  unfold Machine.reload at waits ⊢
  cases selected : m.sync.selected with
  | none =>
    rw [issue_of_unselected selected] at waits
    exact .inr waits
  | some con =>
    rw [issue_of_selected selected] at waits ⊢
    have waits := (Machine.job?_setJob m.nextTicket k _ m).symm.trans waits
    split at waits
    · rename_i hk
      cases waits
      exact .inl (by rw [hk]; rfl)
    · exact .inr waits

theorem activate_waits {m : Machine r} {con : String} {store : Store}
    {faults : List StoreOperation} {k : Nat} {f : Flight}
    (waits : (m.activate con store faults).2.job? k = some (.fetching f)) :
    (m.activate con store faults).1 = .sent k f ∨ m.job? k = some (.fetching f) := by
  unfold Machine.activate at waits ⊢
  rcases activate_cases con store m.sync with ⟨-, ha⟩ | ⟨-, -, ha⟩ | ⟨value, etag, -, -, ha⟩
  · rw [ha] at waits
    exact .inr waits
  · rw [ha] at waits ⊢
    exact reload_waits waits
  · rw [ha] at waits
    right
    cases hr : m.sync.revalidated with
    | true =>
      rw [hr] at waits
      exact waits
    | false =>
      rw [hr] at waits
      have waits := (Machine.job?_setJob m.nextTicket k .queued m).symm.trans waits
      split at waits
      · cases waits
      · exact waits

theorem refresh_waits {m : Machine r} {con : String} {store : Store}
    {faults : List StoreOperation} {k : Nat} {f : Flight}
    (waits : (m.refresh con store faults).2.job? k = some (.fetching f)) :
    (m.refresh con store faults).1 = .sent k f ∨ m.job? k = some (.fetching f) := by
  have activated : (m.activate con store faults).2.job? k = some (.fetching f) →
      (m.activate con store faults).1 = .sent k f ∨ m.job? k = some (.fetching f) := activate_waits
  unfold Machine.refresh at waits ⊢
  generalize m.activate con store faults = result at *
  obtain ⟨p, m'⟩ := result
  split at waits <;> rename_i h
  · cases h
    exact .inr ((activated waits).resolve_left nofun)
  · cases h
    exact (reload_waits waits).imp_right fun before => (activated before).resolve_left nofun
  · cases h
    exact (reload_waits waits).imp_right fun before => (activated before).resolve_left nofun
  · exact activated waits

theorem start_waits {m : Machine r} {ticket : Nat} {store : Store} {k : Nat} {f : Flight}
    (waits : (m.start ticket store).2.job? k = some (.fetching f)) :
    (m.start ticket store).1 = .sent k f ∨ m.job? k = some (.fetching f) := by
  unfold Machine.start at waits ⊢
  split at waits
  · cases selected : m.sync.selected with
    | none =>
      simp only [issue_of_unselected selected, Machine.job?_endJob] at waits
      split at waits
      · cases waits
      · exact .inr waits
    | some con =>
      simp only [issue_of_selected selected] at waits ⊢
      have waits := (Machine.job?_setJob ticket k _ m).symm.trans waits
      split at waits
      · rename_i hk
        cases waits
        exact .inl (by rw [hk])
      · exact .inr waits
  · exact .inr waits

theorem retry_waits {m : Machine r} {store : Store} {k : Nat} {f : Flight}
    (waits : (m.retry store).2.job? k = some (.fetching f)) :
    (m.retry store).1 = .sent k f ∨ m.job? k = some (.fetching f) := by
  have begun : (Machine.reload store { m with triggers := m.triggers - 1 }).2.job? k =
      some (.fetching f) → (Machine.reload store { m with triggers := m.triggers - 1 }).1 =
        .sent k f ∨ m.job? k = some (.fetching f) := reload_waits
  unfold Machine.retry at waits ⊢
  split
  · rename_i busy
    rw [if_pos busy] at waits
    exact .inr waits
  · rename_i free
    rw [if_neg free] at waits
    generalize Machine.reload store { m with triggers := m.triggers - 1 } = result at *
    obtain ⟨p, m'⟩ := result
    cases p <;> exact begun waits

/-- Whoever waits has just made a request, or has waited before. -/
theorem waits_next {s : Scene r} {e : Event} {k : Nat} {f : Flight} (waits : (s.next e).Waits k f) :
    s.progress e = .sent k f ∨ s.Waits k f := by
  cases e with
  | interference store => exact .inr waits
  | move e faults =>
    cases e with
    | activate con => exact activate_waits waits
    | refresh con => exact refresh_waits waits
    | reload => exact reload_waits waits
    | start ticket => exact start_waits waits
    | retry => exact retry_waits waits
    | answer ticket now o =>
      by_cases hk : k = ticket
      · subst hk
        rcases waits_or_idle s k with ⟨g, waited⟩ | idle
        · exact .inl ((waits_answered waited now o faults f).1 waits)
        · rw [Scene.next, perform_answer_idle idle] at waits
          exact .inr waits
      · exact .inr ((waits_beside_answer hk now o faults f).1 waits)
    | abandon ticket =>
      have waits := (Machine.job?_endJob ticket k s.machine).symm.trans waits
      split at waits
      · cases waits
      · exact .inr waits
    | fire =>
      have waits : s.machine.fire.job? k = some (.fetching f) := waits
      unfold Machine.fire at waits
      split at waits <;> exact .inr waits
    | clear => exact .inr waits
    | shutdown => exact .inr waits

end OfflineSchedule.Sync
