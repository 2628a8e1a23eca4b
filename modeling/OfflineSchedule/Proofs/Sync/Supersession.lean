import OfflineSchedule.Proofs.Sync.Run
/-!
# Superseded requests

An answer that comes after a later number was given out ends its reload and leaves store and
synchronizer alone, with one exception: when it confirms what the cache does not have for its con,
the record of the resource is dropped, whichever con it is for, and the request is made again.
-/

namespace OfflineSchedule.Sync

open Http (Outcome)
open Json (Value)
open Retry (Moment Policy)

variable {r : Resource} {s : Scene r}

/-- The answer confirms a value that cannot be got out of the cache (any more). -/
def ConfirmsNothing (r : Resource) (f : Flight) (o : Outcome Value) (store : Store) : Prop :=
  o = .notModified ∧ f.etag.isSome = true ∧ Cache.usable? r store f.con = none

/-- An answer that confirms nothing is asked for again, late or not. -/
theorem answer_of_confirmsNothing {f : Flight} {o : Outcome Value} {store : Store} (y : Sync r)
    (h : ConfirmsNothing r f o store) (policy : Policy) (now : Moment) :
    y.answer policy now f o store = (.again { f with etag := none }, Cache.drop r store, y) := by
  obtain ⟨rfl, asked, unusable⟩ := h
  simp [answer, asked, unusable]

/-- **Late answers.** Once a later number than that of a request has been given out, its answer
ends the reload as superseded and does nothing else, neither to the store nor to the synchronizer,
if and only if it does not confirm what the cache does not have. If it does, then the record of the
resource is dropped and the same reload makes its request again. -/
theorem late_answer_inert_iff {ticket : Nat} {f : Flight} (waited : s.Waits ticket f)
    (late : f.number < s.sync.issued) (now : Moment) (o : Outcome Value)
    (faults : List StoreOperation) :
    let e := Event.move (.answer ticket now o) faults
    (s.perform e = (.ended .superseded, ⟨s.store, s.machine.endJob ticket⟩) ↔
      ¬ ConfirmsNothing r f o s.store) ∧
    (ConfirmsNothing r f o s.store →
      s.perform e = (.sent ticket { f with etag := none },
        ⟨Cache.drop r s.store, s.machine.setJob ticket (.fetching { f with etag := none })⟩)) := by
  intro e
  rw [perform_answer waited]
  have asked_again : ConfirmsNothing r f o s.store →
      s.sync.answer s.machine.policy now f o s.store =
        (.again { f with etag := none }, Cache.drop r s.store, s.sync) :=
    fun h => answer_of_confirmsNothing s.sync h s.machine.policy now
  rcases answer_cases s.machine.policy now f o s.store s.sync with
    ⟨reload, store, y, ha, hs⟩ | ⟨ha, ho, hu, he⟩
  · obtain ⟨rfl, rfl, rfl⟩ := hs.eq_of_late (isLatest_of_lt late)
    have confirms_not : ¬ ConfirmsNothing r f o s.store := by
      intro h
      rw [asked_again h] at ha
      cases ha
    rw [ha]
    constructor
    · constructor
      · intro _
        exact confirms_not
      · intro _
        rfl
    · intro h
      exact absurd h confirms_not
  · have confirms : ConfirmsNothing r f o s.store := ⟨ho, he, hu⟩
    rw [ha]
    constructor
    · constructor
      · rintro ⟨⟩
      · intro h
        exact absurd confirms h
    · intro _
      rfl

/-- Of two cons the first is asked for while it is cached, then the second, which takes its place
in the cache. -/
def twoCons : Scene .pages :=
  (Scene.new .standard { kind := .database }).afterAll
    [.move (.activate "a") [], .move (.answer 0 0 (.success (.array []) (some "v1") false)) [],
      .move .reload [], .move (.activate "b") [],
      .move (.answer 2 0 (.success (.array []) (some "w1") false)) []]

/-- An error that comes late for the first con does nothing. -/
theorem late_error_inert :
    let f : Flight := ⟨"a", 2, some "v1"⟩
    twoCons.Waits 1 f ∧ f.number < twoCons.sync.issued ∧
      twoCons.perform (.move (.answer 1 0 (.error 500)) []) =
        (.ended .superseded, ⟨twoCons.store, twoCons.machine.endJob 1⟩) := by
  intro f
  have waited : twoCons.Waits 1 f := by decide
  have late : f.number < twoCons.sync.issued := by decide
  exact ⟨waited, late, (late_answer_inert_iff waited late 0 (.error 500) []).1.2
    fun h => nomatch h.1⟩

/-- A confirmation that comes late for the first con removes the record of the second, which is
selected and on display, and sends a request. -/
theorem late_confirmation_drops_other_con :
    let f : Flight := ⟨"a", 2, some "v1"⟩
    let e := Event.move (.answer 1 0 .notModified) []
    twoCons.Waits 1 f ∧ f.number < twoCons.sync.issued ∧ twoCons.sync.selected = some "b" ∧
      Cache.etag? .pages twoCons.store "b" = some "w1" ∧
      twoCons.progress e = .sent 1 { f with etag := none } ∧
      (twoCons.next e).store.records = [] := by
  intro f e
  decide

end OfflineSchedule.Sync
