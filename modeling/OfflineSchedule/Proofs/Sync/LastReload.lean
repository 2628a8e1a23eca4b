import OfflineSchedule.Proofs.Cache.Usable
import OfflineSchedule.Proofs.Sync.Run
/-!
# The last reload decides

Reloads that have all been begun before any of them ends get their answers in any order. The one
that was begun last ends as it would have ended by itself, with the same effect on what is displayed
and on retries, and all others end as superseded.

The proof compares the two runs answer by answer (`Racing`). An answer to one of the other reloads
can do no more than drop a record that cannot be used, so the last reload finds the same usable
record in both runs, or none in both.
-/

namespace OfflineSchedule.Sync

open Http (Outcome)
open Json (Value)
open Retry (Moment Policy)

variable {r : Resource} {s a b : Scene r} {con : String} {first last only : Nat}

/-! ## Runs of answers -/

/-- What may happen while reloads are begun, from the ticket `first` on: others of them make their
request again, and the store may change, but none of them ends. -/
def Opening (first : Nat) (s : Scene r) (e : Event) : Prop :=
  match e with
  | .move .reload _ => True
  | .move (.answer ticket _ _) _ =>
    first ≤ ticket ∧ ticket < s.machine.nextTicket ∧ ∀ reload, s.progress e ≠ .ended reload
  | .interference _ => True
  | _ => False

/-- What may happen while the reloads `first` to `last` wait for their answers. -/
def Closing (first last : Nat) (_ : Scene r) : Event → Prop
  | .move (.answer ticket _ _) _ => first ≤ ticket ∧ ticket ≤ last
  | .interference _ => True
  | _ => False

/-- How the reload of a ticket ends by an event. -/
def Scene.endOf? (ticket : Nat) (e : Event) (s : Scene r) : Option Reload :=
  match e, s.progress e with
  | .move (.answer k _ _) _, .ended reload => if k = ticket then some reload else none
  | _, _ => none

theorem Scene.endOf?_answer {ticket k : Nat} {now : Moment} {o : Outcome Value}
    {faults : List StoreOperation} {reload : Reload} :
    s.endOf? ticket (.move (.answer k now o) faults) = some reload ↔
      k = ticket ∧ s.progress (.move (.answer k now o) faults) = .ended reload := by
  unfold endOf?
  split
  · rename_i event ended
    cases event
    simp [ended]
  · rename_i other
    simpa using fun _ => other k now o faults reload rfl

/-- How the reload of a ticket ends in the course of some events. -/
def Scene.outcome? (ticket : Nat) : List Event → Scene r → Option Reload
  | [], _ => none
  | e :: es, s => (s.endOf? ticket e).or ((s.next e).outcome? ticket es)

theorem Scene.outcome?_append (ticket : Nat) (es es' : List Event) (s : Scene r) :
    s.outcome? ticket (es ++ es') =
      (s.outcome? ticket es).or ((s.afterAll es).outcome? ticket es') := by
  induction es generalizing s with
  | nil => rfl
  | cons e es ih =>
    show (s.endOf? ticket e).or ((s.next e).outcome? ticket (es ++ es')) = _
    rw [ih, ← Option.or_assoc]
    rfl

/-- What is left of an event for the reload `only`, which gets the answers to `last`. -/
def Event.readdress (last only : Nat) : Event → Option Event
  | .move (.answer ticket now o) faults =>
    if ticket = last then some (.move (.answer only now o) faults) else none
  | .interference store => some (.interference store)
  | _ => none

/-! ## Numbers -/

/-- The number of the latest request counts for nothing but for being the latest. -/
theorem answer_renumbered (policy : Policy) (now : Moment) (o : Outcome Value) {f : Flight}
    {y y' : Sync r} {store store' : Store} (latest : y.isLatest f = true)
    (same : y' = { y with issued := y'.issued })
    (usable : Cache.usable? r store' f.con = Cache.usable? r store f.con) :
    let f' := { f with number := y'.issued }
    (∃ reload kept kept' z, reload ≠ .superseded ∧
      y.answer policy now f o store = (.ended reload, kept, z) ∧
      y'.answer policy now f' o store' = (.ended reload, kept', { z with issued := y'.issued })) ∨
    Cache.usable? r store f.con = none ∧
      y.answer policy now f o store = (.again { f with etag := none }, Cache.drop r store, y) ∧
      y'.answer policy now f' o store' =
        (.again { f' with etag := none }, Cache.drop r store', y') := by
  intro f'
  have latest' : y'.isLatest f' = true := by simp [isLatest, f']
  have received : ∀ value etag stale, y'.receive policy now f' value etag stale =
      { y.receive policy now f value etag stale with issued := y'.issued } := by
    intro value etag stale
    rw [same]
    cases stale <;> rfl
  have confirmed : ∀ value etag, y'.confirm f' value etag =
      { y.confirm f value etag with issued := y'.issued } := by
    intro value etag
    rw [same]
    rfl
  have failed : ∀ code, y'.fail f' code = { y.fail f code with issued := y'.issued } := by
    intro code
    rw [same]
    unfold fail
    split <;> rfl
  have ends : ∀ code, ∃ reload z, reload ≠ .superseded ∧
      y.settleFailure f code = (.ended reload, z) ∧
      y'.settleFailure f' code = (.ended reload, { z with issued := y'.issued }) := by
    intro code
    exact ⟨.failed code, y.fail f code, by simp, by simp [settleFailure, latest],
      by simp [settleFailure, latest', failed]⟩
  cases o with
  | success payload etag stale =>
    left
    cases hd : r.liveOfValue payload with
    | ok value =>
      exact ⟨.updated stale, if stale then store else Cache.keep r store f.con value etag,
        if stale then store' else Cache.keep r store' f.con value etag,
        y.receive policy now f value etag stale, by simp, by simp [answer, hd, latest],
        by simp [answer, hd, latest', received, f']⟩
    | error e =>
      obtain ⟨reload, z, ne, hz, hz'⟩ := ends Http.transportCode
      exact ⟨reload, store, store', z, ne, by simp [answer, hd, hz], by simp [answer, hd, hz']⟩
  | notModified =>
    cases hu : Cache.usable? r store f.con with
    | some p =>
      left
      have hu' : Cache.usable? r store' f'.con = some p := usable.trans hu
      exact ⟨.notModified, store, store', y.confirm f p.1 p.2, by simp,
        by simp [answer, hu, latest], by simp [answer, hu', latest', confirmed]⟩
    | none =>
      have hu' : Cache.usable? r store' f'.con = none := usable.trans hu
      cases ha : f.etag.isSome with
      | true =>
        have ha' : f'.etag.isSome = true := ha
        exact .inr ⟨rfl, by simp [answer, hu, ha], by simp [answer, hu', ha']⟩
      | false =>
        left
        have ha' : f'.etag.isSome = false := ha
        obtain ⟨reload, z, ne, hz, hz'⟩ := ends notModifiedCode
        exact ⟨reload, store, store', z, ne, by simp [answer, hu, ha, hz],
          by simp [answer, hu', ha', hz']⟩
  | error code =>
    left
    obtain ⟨reload, z, ne, hz, hz'⟩ := ends code
    exact ⟨reload, store, store', z, ne, by simp [answer, hz], by simp [answer, hz']⟩

/-! ## While the reloads are begun -/

/-- What holds when reloads of the con have been begun since the scene `s`, and none has ended. -/
structure Opened (con : String) (s a : Scene r) : Prop where
  policy : a.machine.policy = s.machine.policy
  selected : a.sync.selected = some con
  /-- A request leaves the same synchronizer as one would have left at first, numbers apart. -/
  sync : s.sync.begun con = { a.sync.begun con with issued := s.sync.issued + 1 }
  le : s.machine.nextTicket ≤ a.machine.nextTicket
  waits : ∀ k, s.machine.nextTicket ≤ k → k < a.machine.nextTicket →
    ∃ f, a.Waits k f ∧ f.con = con ∧ f.number ≤ a.sync.issued

theorem begun_begun (con : String) (y : Sync r) :
    (y.begun con).begun con = { y.begun con with issued := y.issued + 2 } := by
  have selected : (y.begun con).selected = some con := selected_select con y
  rw [begun, select_of_selected selected]
  rfl

namespace Opened

theorem of_selected (selected : s.sync.selected = some con) : Opened con s s :=
  ⟨rfl, selected, rfl, Nat.le_refl _, fun _ lo hi => absurd lo (Nat.not_le.2 hi)⟩

theorem reload (h : Opened con s a) (faults : List StoreOperation) :
    Opened con s (a.next (.move .reload faults)) := by
  have sync := sync_next_reload h.selected faults
  have ticket : (a.next (.move .reload faults)).machine.nextTicket = a.machine.nextTicket + 1 := by
    rw [next_reload h.selected]
    rfl
  refine ⟨?_, ?_, ?_, ?_, fun k lo hi => ?_⟩
  · rw [next_reload h.selected]
    exact h.policy
  · rw [sync]
    exact selected_select con a.sync
  · rw [sync, begun_begun, h.sync]
  · rw [ticket]
    exact Nat.le_succ_of_le h.le
  · have issued : (a.next (.move .reload faults)).sync.issued = a.sync.issued + 1 := by
      rw [sync]
      rfl
    by_cases hk : k = a.machine.nextTicket
    · exact ⟨a.sync.request con a.store,
        (waits_next_reload h.selected faults k _).2 (if_pos hk ▸ rfl), rfl,
        by rw [issued]; exact Nat.le_refl _⟩
    · obtain ⟨f, waits, hc, hn⟩ := h.waits k lo (by omega)
      exact ⟨f, (waits_next_reload h.selected faults k f).2 (by rwa [if_neg hk]), hc, by omega⟩

theorem answer (h : Opened con s a) {ticket : Nat} (lo : s.machine.nextTicket ≤ ticket)
    (hi : ticket < a.machine.nextTicket) (now : Moment) (o : Outcome Value)
    (faults : List StoreOperation)
    (open_ : ∀ reload, a.progress (.move (.answer ticket now o) faults) ≠ .ended reload) :
    Opened con s (a.next (.move (.answer ticket now o) faults)) := by
  obtain ⟨policy, tickets⟩ := machine_answer a ticket now o faults
  obtain ⟨f, waited, con_eq, number_le⟩ := h.waits ticket lo hi
  rcases next_answer waited now o faults with ⟨reload, ended, -⟩ | ⟨sent, -, -, -, sync⟩
  · exact absurd ended (open_ reload)
  · refine ⟨policy.trans h.policy, by rw [sync]; exact h.selected, by rw [sync]; exact h.sync,
      by rw [tickets]; exact h.le, fun k lo hi => ?_⟩
    rw [sync]
    by_cases hk : k = ticket
    · subst hk
      exact ⟨_, (waits_answered waited now o faults _).2 sent, con_eq, number_le⟩
    · obtain ⟨g, waits, hg⟩ := h.waits k lo (tickets ▸ hi)
      exact ⟨g, (waits_beside_answer hk now o faults g).2 waits, hg⟩

theorem next (h : Opened con s a) {e : Event} (allowed : Opening s.machine.nextTicket a e) :
    Opened con s (a.next e) := by
  cases e with
  | interference store => exact ⟨h.policy, h.selected, h.sync, h.le, h.waits⟩
  | move e faults =>
    cases e with
    | reload => exact h.reload faults
    | answer ticket now o => exact h.answer allowed.1 allowed.2.1 now o faults allowed.2.2
    | _ => cases allowed

theorem afterAll (h : Opened con s a) {es : List Event}
    (allowed : a.AllowsAll (Opening s.machine.nextTicket) es) : Opened con s (a.afterAll es) := by
  induction es generalizing a with
  | nil => exact h
  | cons e es ih => exact ih (h.next allowed.1) allowed.2

end Opened

/-! ## While the reloads are answered -/

/-- Either the last reload waits for the same answer in both scenes, with the same usable record at
hand, or it has ended in both. -/
def Abreast (con : String) (last only : Nat) (a b : Scene r) : Prop :=
  (∃ tag, a.Waits last ⟨con, a.sync.issued, tag⟩ ∧ b.Waits only ⟨con, b.sync.issued, tag⟩ ∧
      Cache.usable? r b.store con = Cache.usable? r a.store con) ∨
    (∀ f, ¬ a.Waits last f) ∧ ∀ f, ¬ b.Waits only f

/-- What holds of the scene `a`, in which the reloads `first` to `last` were begun, and the scene
`b`, in which `last` was begun by itself, as `only`, when they have got the same answers. -/
structure Racing (con : String) (first last only : Nat) (a b : Scene r) : Prop where
  policy : b.machine.policy = a.machine.policy
  sync : b.sync = { a.sync with issued := b.sync.issued }
  others : ∀ k, first ≤ k → k < last → ∀ f, a.Waits k f →
    f.con = con ∧ f.number < a.sync.issued
  abreast : Abreast con last only a b

namespace Racing

/-- The last reload begins. -/
theorem of_opened (selected : s.sync.selected = some con) (h : Opened con s a)
    (faults : List StoreOperation) :
    let e := Event.move .reload faults
    let alone : Scene r := { s with store := a.store }
    Racing con s.machine.nextTicket a.machine.nextTicket s.machine.nextTicket (a.next e)
      (alone.next e) := by
  intro e alone
  have selected' : alone.sync.selected = some con := selected
  have sync : (a.next e).sync = a.sync.begun con := sync_next_reload h.selected faults
  have sync' : (alone.next e).sync = s.sync.begun con := sync_next_reload selected' faults
  refine ⟨?_, ?_, fun k lo hi f waits => ?_, .inl ⟨Cache.etag? r a.store con, ?_, ?_, ?_⟩⟩
  · rw [next_reload h.selected, next_reload selected']
    exact h.policy.symm
  · rw [sync, sync']
    exact h.sync
  · obtain ⟨g, waits', hc, hn⟩ := h.waits k lo hi
    rw [waits_next_reload h.selected, if_neg (Nat.ne_of_lt hi)] at waits
    obtain rfl : f = g := by
      have := waits.symm.trans waits'
      simpa using this
    rw [sync]
    exact ⟨hc, Nat.lt_succ_of_le hn⟩
  · rw [waits_next_reload h.selected, if_pos rfl, sync]
    rfl
  · rw [waits_next_reload selected', if_pos rfl, sync']
    rfl
  · rw [next_reload h.selected, next_reload selected']

/-- An answer in the first scene changes little that counts here. -/
theorem answered (h : Racing con first last only a b) {ticket : Nat} {now : Moment}
    {o : Outcome Value} {faults : List StoreOperation} {b' : Scene r}
    (policy : b'.machine.policy = b.machine.policy)
    (sync : b'.sync =
      { (a.next (.move (.answer ticket now o) faults)).sync with issued := b'.sync.issued })
    (abreast : Abreast con last only (a.next (.move (.answer ticket now o) faults)) b') :
    Racing con first last only (a.next (.move (.answer ticket now o) faults)) b' := by
  refine ⟨?_, sync, fun k lo hi f waits => ?_, abreast⟩
  · rw [policy, h.policy, (machine_answer a ticket now o faults).1]
  · obtain ⟨g, waited, hc, hn⟩ := waits_before_answer waits
    rw [issued_answer, ← hc, ← hn]
    exact h.others k lo hi g waited

/-- An answer to one of the other reloads ends it without an effect, or has it ask again after a
record was dropped that could not be used. -/
theorem other (h : Racing con first last only a b) {ticket : Nat} (lo : first ≤ ticket)
    (hi : ticket < last) (now : Moment) (o : Outcome Value) (faults : List StoreOperation) :
    let e := Event.move (.answer ticket now o) faults
    Racing con first last only (a.next e) b ∧
      ∀ reload, a.progress e = .ended reload → reload = .superseded := by
  intro e
  rcases waits_or_idle a ticket with ⟨f, waited⟩ | idle
  · obtain ⟨con_eq, late⟩ := h.others ticket lo hi f waited
    have same : (a.next e).sync = a.sync ∧
        Cache.usable? r (a.next e).store con = Cache.usable? r a.store con ∧
        ∀ reload, a.progress e = .ended reload → reload = .superseded := by
      rcases next_answer waited now o faults with
        ⟨reload, ended, settled⟩ | ⟨sent, -, unusable, store, sync⟩
      · obtain ⟨rfl, store, sync⟩ := settled.eq_of_late (isLatest_of_lt late)
        refine ⟨sync, by rw [store], fun reload h => ?_⟩
        exact (Progress.ended.inj (ended.symm.trans h)).symm
      · refine ⟨sync, ?_, fun reload h => by simp [e, sent] at h⟩
        rw [con_eq] at unusable
        rw [store, unusable, Cache.usable?_drop_of_none unusable]
    obtain ⟨sync, usable, ends⟩ := same
    have abreast : Abreast con last only (a.next e) b := by
      have beside := waits_beside_answer (Nat.ne_of_gt hi) now o faults (s := a)
      simp only [Abreast, e, beside, sync, usable]
      exact h.abreast
    exact ⟨h.answered rfl (by rw [sync]; exact h.sync) abreast, ends⟩
  · have done := perform_answer_idle idle now o faults
    rw [Scene.next, Scene.progress, done]
    exact ⟨h, fun _ ended => by cases ended⟩

/-- An answer to the last reload does the same in both scenes. -/
theorem latest (h : Racing con first last only a b) (now : Moment) (o : Outcome Value)
    (faults : List StoreOperation) :
    let e := Event.move (.answer last now o) faults
    let e' := Event.move (.answer only now o) faults
    Racing con first last only (a.next e) (b.next e') ∧
      (∀ reload, a.progress e = .ended reload ↔ b.progress e' = .ended reload) ∧
      ∀ reload, a.progress e = .ended reload → reload ≠ .superseded := by
  intro e e'
  have policy := (machine_answer b only now o faults).1
  have issued' : (b.next e').sync.issued = b.sync.issued := issued_answer b only now o faults
  rcases h.abreast with ⟨tag, waits, waits', usable⟩ | ⟨idle, idle'⟩
  · have performed := perform_answer waits now o faults
    have performed' := perform_answer waits' now o faults
    have latest : a.sync.isLatest ⟨con, a.sync.issued, tag⟩ = true := isLatest_iff.2 rfl
    rw [h.policy] at performed'
    rcases answer_renumbered a.machine.policy now o latest h.sync usable with
      ⟨reload, kept, kept', z, ne, ha, hb⟩ | ⟨unusable, ha, hb⟩
    · rw [ha] at performed
      rw [hb] at performed'
      have ended : a.progress e = .ended reload := congrArg Prod.fst performed
      have ended' : b.progress e' = .ended reload := congrArg Prod.fst performed'
      have sync : (a.next e).sync = z := congrArg (·.2.sync) performed
      have sync' : (b.next e').sync = { z with issued := b.sync.issued } :=
        congrArg (·.2.sync) performed'
      have abreast : Abreast con last only (a.next e) (b.next e') := by
        refine .inr ⟨fun f hw => ?_, fun f hw => ?_⟩
        · cases ended.symm.trans ((waits_answered waits now o faults f).1 hw)
        · cases ended'.symm.trans ((waits_answered waits' now o faults f).1 hw)
      refine ⟨h.answered policy (by rw [issued', sync', sync]) abreast, ?_, ?_⟩
      · simp [ended, ended']
      · simpa [ended] using ne
    · rw [ha] at performed
      rw [hb] at performed'
      have sent : a.progress e = .sent last ⟨con, a.sync.issued, none⟩ :=
        congrArg Prod.fst performed
      have sent' : b.progress e' = .sent only ⟨con, b.sync.issued, none⟩ :=
        congrArg Prod.fst performed'
      have sync : (a.next e).sync = a.sync := congrArg (·.2.sync) performed
      have sync' : (b.next e').sync = b.sync := congrArg (·.2.sync) performed'
      have store : (a.next e).store = Cache.drop r a.store := congrArg (·.2.store) performed
      have store' : (b.next e').store = Cache.drop r b.store := congrArg (·.2.store) performed'
      have abreast : Abreast con last only (a.next e) (b.next e') := by
        refine .inl ⟨none, ?_, ?_, ?_⟩
        · rw [sync]
          exact (waits_answered waits now o faults _).2 sent
        · rw [sync']
          exact (waits_answered waits' now o faults _).2 sent'
        · rw [store, store', Cache.usable?_drop_of_none unusable,
            Cache.usable?_drop_of_none (usable.trans unusable)]
      refine ⟨h.answered policy (by rw [sync', sync]; exact h.sync) abreast, ?_, ?_⟩
      · simp [sent, sent']
      · simp [sent]
  · have done := perform_answer_idle idle now o faults
    have done' := perform_answer_idle idle' now o faults
    rw [Scene.next, Scene.progress, Scene.next, Scene.progress, done, done']
    exact ⟨h, fun _ => Iff.rfl, fun _ ended => by cases ended⟩

/-- The store changes in both scenes. -/
theorem interfered (h : Racing con first last only a b) (store : Store) :
    Racing con first last only (a.next (.interference store)) (b.next (.interference store)) := by
  refine ⟨h.policy, h.sync, h.others, ?_⟩
  rcases h.abreast with ⟨tag, waits, waits', -⟩ | idle
  · exact .inl ⟨tag, waits, waits', rfl⟩
  · exact .inr idle

theorem next (h : Racing con first last only a b) {e : Event} (allowed : Closing first last a e) :
    Racing con first last only (a.next e) (b.afterAll (e.readdress last only).toList) ∧
      (∀ k, first ≤ k → k < last → ∀ reload, a.endOf? k e = some reload →
        reload = .superseded) ∧
      a.endOf? last e = b.outcome? only (e.readdress last only).toList ∧
      ∀ reload, a.endOf? last e = some reload → reload ≠ .superseded := by
  cases e with
  | interference store =>
    exact ⟨h.interfered store, by simp [Scene.endOf?], rfl, by simp [Scene.endOf?]⟩
  | move e faults =>
    cases e with
    | answer ticket now o =>
      by_cases hk : ticket = last
      · subst hk
        obtain ⟨racing, ends, ne⟩ := h.latest now o faults
        have readdressed : (Event.move (.answer ticket now o) faults).readdress ticket only =
            some (.move (.answer only now o) faults) := if_pos rfl
        rw [readdressed]
        refine ⟨racing, fun k _ hi reload ended => ?_, ?_, fun reload ended => ?_⟩
        · exact absurd (Scene.endOf?_answer.1 ended).1 (Nat.ne_of_gt hi)
        · ext reload
          simp [Scene.outcome?, Scene.endOf?_answer, ends]
        · exact ne reload (Scene.endOf?_answer.1 ended).2
      · obtain ⟨lo, hi⟩ := allowed
        obtain ⟨racing, superseded⟩ := h.other lo (Nat.lt_of_le_of_ne hi hk) now o faults
        have readdressed : (Event.move (.answer ticket now o) faults).readdress last only =
            none := if_neg hk
        rw [readdressed]
        refine ⟨racing, fun k _ _ reload ended => ?_, ?_, fun reload ended => ?_⟩
        · exact superseded reload (Scene.endOf?_answer.1 ended).2
        · ext reload
          simp [Scene.outcome?, Scene.endOf?_answer, hk]
        · exact absurd (Scene.endOf?_answer.1 ended).1 hk
    | _ => cases allowed

theorem afterAll (h : Racing con first last only a b) {es : List Event}
    (allowed : a.AllowsAll (Closing first last) es) :
    Racing con first last only (a.afterAll es)
        (b.afterAll (es.filterMap (Event.readdress last only))) ∧
      (∀ k, first ≤ k → k < last → ∀ reload, a.outcome? k es = some reload →
        reload = .superseded) ∧
      a.outcome? last es = b.outcome? only (es.filterMap (Event.readdress last only)) ∧
      ∀ reload, a.outcome? last es = some reload → reload ≠ .superseded := by
  induction es generalizing a b with
  | nil => exact ⟨h, by simp [Scene.outcome?], rfl, by simp [Scene.outcome?]⟩
  | cons e es ih =>
    obtain ⟨racing, others, same, latest⟩ := h.next allowed.1
    obtain ⟨racing, others', same', latest'⟩ := ih racing allowed.2
    have split : (e :: es).filterMap (Event.readdress last only) =
        (e.readdress last only).toList ++ es.filterMap (Event.readdress last only) := by
      cases he : e.readdress last only <;> simp [he]
    rw [split, Scene.afterAll_append, Scene.outcome?_append, ← same, ← same']
    refine ⟨racing, fun k lo hi reload ended => ?_, rfl, fun reload ended => ?_⟩
    · rcases Option.or_eq_some_iff.1 ended with ended | ⟨-, ended⟩
      · exact others k lo hi reload ended
      · exact others' k lo hi reload ended
    · rcases Option.or_eq_some_iff.1 ended with ended | ⟨-, ended⟩
      · exact latest reload ended
      · exact latest' reload ended

end Racing

/-- A reload that waits and does not wait in the end has ended in between. -/
theorem exists_outcome {k : Nat} {f : Flight} (waits : s.Waits k f) {es : List Event}
    (allowed : s.AllowsAll (Closing first last) es)
    (finished : ∀ g, ¬ (s.afterAll es).Waits k g) : ∃ reload, s.outcome? k es = some reload := by
  induction es generalizing s f with
  | nil => exact absurd waits (finished f)
  | cons e es ih =>
    obtain ⟨allowed, rest⟩ := allowed
    have later : ∀ g, (s.next e).Waits k g → ∃ reload, s.outcome? k (e :: es) = some reload := by
      intro g waits
      obtain ⟨reload, h⟩ := ih waits rest finished
      cases hn : s.endOf? k e with
      | some reload => exact ⟨reload, by simp [Scene.outcome?, hn]⟩
      | none => exact ⟨reload, by simp [Scene.outcome?, hn, h]⟩
    cases e with
    | interference store => exact later f waits
    | move e faults =>
      cases e with
      | answer ticket now o =>
        by_cases hk : k = ticket
        · subst hk
          rcases next_answer waits now o faults with ⟨reload, ended, -⟩ | ⟨sent, -⟩
          · exact ⟨reload, by simp [Scene.outcome?, Scene.endOf?_answer.2 ⟨rfl, ended⟩]⟩
          · exact later _ ((waits_answered waits now o faults _).2 sent)
        · exact later f ((waits_beside_answer hk now o faults f).2 waits)
      | _ => cases allowed

theorem store_of_reloads {es : List Event}
    (reloads : ∀ e ∈ es, ∃ faults, e = .move .reload faults) : (s.afterAll es).store = s.store := by
  induction es generalizing s with
  | nil => rfl
  | cons e es ih =>
    obtain ⟨faults, rfl⟩ := reloads e List.mem_cons_self
    exact ih fun e he => reloads e (List.mem_cons_of_mem _ he)

/-- **The last reload decides.** A con is selected, reloads are begun, the last of them before any
has ended, and then they get answers until all have ended, in whatever order. Then the last one ends
with a result, and all others as superseded. Had the last one been begun by itself, with the store
as it found it, and got the same answers, it would have ended the same, and the synchronizer would
be the same but for the number of requests. -/
theorem last_reload_decides (selected : s.sync.selected = some con) {opening answers : List Event}
    (opened : s.AllowsAll (Opening s.machine.nextTicket) opening) :
    let e := Event.move .reload []
    let before := s.afterAll opening
    let first := s.machine.nextTicket
    let last := before.machine.nextTicket
    let all := before.next e
    let alone := { s with store := before.store }.next e
    let answers' := answers.filterMap (Event.readdress last first)
    all.AllowsAll (Closing first last) answers →
    (∀ k, first ≤ k → k ≤ last → ∀ f, ¬ (all.afterAll answers).Waits k f) →
    (alone.afterAll answers').sync =
        { (all.afterAll answers).sync with issued := (alone.afterAll answers').sync.issued } ∧
      (∀ k, first ≤ k → k < last → all.outcome? k answers = some .superseded) ∧
      (∃ reload, reload ≠ .superseded ∧ all.outcome? last answers = some reload ∧
        alone.outcome? first answers' = some reload) ∧
      ((∀ e ∈ opening, ∃ faults, e = .move .reload faults) → alone = s.next e) := by
  intro e before first last all alone answers' allowed finished
  have h : Opened con s before := (Opened.of_selected selected).afterAll opened
  have racing : Racing con first last first all alone := .of_opened selected h []
  obtain ⟨end_, superseded, same, latest⟩ := racing.afterAll allowed
  have ends : ∀ k, first ≤ k → k ≤ last → ∃ reload, all.outcome? k answers = some reload := by
    intro k lo hi
    obtain ⟨f, waits⟩ : ∃ f, all.Waits k f := by
      by_cases hk : k = last
      · exact ⟨_, (waits_next_reload h.selected [] k _).2 (by rw [if_pos hk])⟩
      · obtain ⟨f, waits, -⟩ := h.waits k lo (Nat.lt_of_le_of_ne hi hk)
        exact ⟨f, (waits_next_reload h.selected [] k f).2 (by rwa [if_neg hk])⟩
    exact exists_outcome waits allowed (finished k lo hi)
  refine ⟨end_.sync, fun k lo hi => ?_, ?_, fun reloads => ?_⟩
  · obtain ⟨reload, ended⟩ := ends k lo (Nat.le_of_lt hi)
    rw [ended, superseded k lo hi reload ended]
  · obtain ⟨reload, ended⟩ := ends last h.le (Nat.le_refl _)
    exact ⟨reload, latest reload ended, ended, same ▸ ended⟩
  · have store : before.store = s.store := store_of_reloads reloads
    rw [show alone = { s with store := before.store }.next e from rfl, store]

/-- Two reloads ask about a record that cannot be read. Both are told that it is up to date, then
the last one gets a payload, and then the other one an error. -/
theorem last_reload_decides_of_unreadable_record :
    let record := "\x7b\"instance\":\"a\",\"etag\":\"v1\",\"value\":3\x7d"
    let start : Scene .pages := .new .standard
      { kind := .database, records := [(Cache.recordKey "pages", record)] }
    let s := start.afterAll [.move (.activate "a") [], .move (.answer 0 0 (.error 500)) []]
    let opening := [Event.move .reload []]
    let all := (s.afterAll opening).next (.move .reload [])
    let again := Event.move (.answer 1 0 .notModified) []
    let answers := [again, .move (.answer 2 0 .notModified) [],
      .move (.answer 2 0 (.success (.array []) none true)) [], .move (.answer 1 0 (.error 500)) []]
    s.sync.selected = some "a" ∧ s.AllowsAll (Opening 1) opening ∧
      all.AllowsAll (Closing 1 2) answers ∧
      (∀ k, 1 ≤ k → k ≤ 2 → ∀ f, ¬ (all.afterAll answers).Waits k f) ∧
      all.progress again = .sent 1 ⟨"a", 2, none⟩ ∧
      all.outcome? 1 answers = some .superseded ∧
      ∃ reload, reload ≠ .superseded ∧ all.outcome? 2 answers = some reload := by
  intro record start s opening all again answers
  have selected : s.sync.selected = some "a" := by decide
  have first : s.machine.nextTicket = 1 := by decide
  have last : (s.afterAll opening).machine.nextTicket = 2 := by decide
  have opened : s.AllowsAll (Opening 1) opening := ⟨trivial, trivial⟩
  have allowed : all.AllowsAll (Closing 1 2) answers :=
    ⟨⟨by decide, by decide⟩, ⟨by decide, by decide⟩, ⟨by decide, by decide⟩,
      ⟨by decide, by decide⟩, trivial⟩
  have finished : ∀ k, 1 ≤ k → k ≤ 2 → ∀ f, ¬ (all.afterAll answers).Waits k f := by
    have jobs : (all.afterAll answers).machine.jobs = [] := by decide
    simp [Scene.Waits, Machine.job?, jobs]
  have decides := @last_reload_decides .pages s "a" selected opening answers (first ▸ opened)
  dsimp only at decides
  rw [first, last] at decides
  obtain ⟨-, others, ⟨reload, ne, ended, -⟩, -⟩ := decides allowed finished
  exact ⟨selected, opened, allowed, finished, by decide, others 1 (by decide) (by decide),
    reload, ne, ended⟩

end OfflineSchedule.Sync
