import OfflineSchedule.Proofs.Sync.Retrying
import OfflineSchedule.Proofs.Sync.Supersession
/-!
# How many requests a reload makes

A reload makes a request, and when a confirmation comes for what the cache does not have (any more)
it makes the same request again, without the condition. To that nothing can be confirmed, so the
next answer ends the reload, whatever it says, and whether or not the record could be dropped.

That these are all its requests is a matter of tickets: a ticket is given out once, its reload
begins once, and as long as it waits, its last request is the one that it waits for (`Asking`).
-/

namespace OfflineSchedule.Sync

open Http (Outcome)
open Json (Value)
open Retry (Moment Policy)

variable {r : Resource} {Allowed : Scene r → Event → Prop} {s : Scene r} {past : List (Incident r)}
  {ticket : Nat} {f : Flight}

/-! ## Requests in a history -/

/-- The request that the incident has made for the reload of a ticket. -/
def Incident.request? (ticket : Nat) (i : Incident r) : Option Flight :=
  match i.progress with
  | .sent k f => if k = ticket then some f else none
  | _ => none

/-- The requests that the reload of a ticket has made, in their order. -/
def requestsOf (ticket : Nat) : List (Incident r) → List Flight
  | [] => []
  | i :: past => requestsOf ticket past ++ (i.request? ticket).toList

/-- The request of the ticket was answered by a confirmation, and nothing could be confirmed. -/
def FoundNothing (past : List (Incident r)) (ticket : Nat) (f : Flight) : Prop :=
  ∃ i ∈ past, ∃ now o faults, i.event = .move (.answer ticket now o) faults ∧
    i.before.Waits ticket f ∧ ConfirmsNothing r f o i.before.store

/-- A reload can have made no request, one, or the same one again. -/
inductive Requested (past : List (Incident r)) (ticket : Nat) : List Flight → Prop where
  | none : Requested past ticket []
  | once (f : Flight) : Requested past ticket [f]
  | twice (f : Flight) (found : FoundNothing past ticket f) :
      Requested past ticket [f, { f with etag := none }]

theorem FoundNothing.mono (i : Incident r) (h : FoundNothing past ticket f) :
    FoundNothing (i :: past) ticket f := by
  obtain ⟨j, mem, found⟩ := h
  exact ⟨j, List.mem_cons_of_mem i mem, found⟩

theorem Requested.mono {fs : List Flight} (i : Incident r) (h : Requested past ticket fs) :
    Requested (i :: past) ticket fs := by
  cases h with
  | none => exact .none
  | once f => exact .once f
  | twice f found => exact .twice f (found.mono i)

theorem Requested.length_le {fs : List Flight} (h : Requested past ticket fs) : fs.length ≤ 2 := by
  cases h <;> simp

theorem Incident.request?_of_sent {i : Incident r} (sent : i.progress = .sent ticket f) :
    i.request? ticket = some f := by
  simp [request?, sent]

theorem Incident.request?_eq_some {i : Incident r} (h : i.request? ticket = some f) :
    i.progress = .sent ticket f := by
  unfold request? at h
  split at h
  · rename_i k g sent
    split at h
    · rename_i hk
      cases h
      rw [sent, hk]
    · cases h
  · cases h

/-! ## Tickets of reloads that have not begun -/

/-- The reload of the ticket has not begun: the ticket was not given out, or it is left to the
background. -/
def Machine.Unbegun (ticket : Nat) (m : Machine r) : Prop :=
  m.nextTicket ≤ ticket ∨ m.job? ticket = some .queued

theorem reload_sent_ticket {m : Machine r} {store : Store}
    (sent : (m.reload store).1 = .sent ticket f) : m.nextTicket = ticket := by
  unfold Machine.reload at sent
  split at sent
  · cases sent
  · cases sent
    rfl

theorem activate_sent_ticket {m : Machine r} {con : String} {store : Store}
    {faults : List StoreOperation} (sent : (m.activate con store faults).1 = .sent ticket f) :
    m.nextTicket = ticket := by
  unfold Machine.activate at sent
  split at sent
  · cases sent
  · have given := reload_sent_ticket sent
    exact given
  · cases sent
  · cases sent

/-- An activation that leaves nothing to the background gives out no ticket. -/
theorem nextTicket_activate {m m' : Machine r} {con : String} {store : Store}
    {faults : List StoreOperation} {p : Progress}
    (activated : m.activate con store faults = (p, m')) (quiet : p = .unchanged ∨ p = .cached none) :
    m'.nextTicket = m.nextTicket := by
  unfold Machine.activate at activated
  split at activated
  · cases activated
    rfl
  · rename_i y _
    have sent := congrArg Prod.fst activated
    unfold Machine.reload at sent
    split at sent <;> cases sent <;> simp at quiet
  · cases activated
    simp at quiet
  · cases activated
    rfl

theorem refresh_sent_ticket {m : Machine r} {con : String} {store : Store}
    {faults : List StoreOperation} (sent : (m.refresh con store faults).1 = .sent ticket f) :
    m.nextTicket = ticket := by
  unfold Machine.refresh at sent
  split at sent <;> rename_i activated
  · cases sent
  · exact (nextTicket_activate activated (.inr rfl)).symm.trans (reload_sent_ticket sent)
  · exact (nextTicket_activate activated (.inl rfl)).symm.trans (reload_sent_ticket sent)
  · exact activate_sent_ticket sent

theorem start_sent_queued {m : Machine r} {k : Nat} {store : Store}
    (sent : (m.start k store).1 = .sent ticket f) : m.job? ticket = some .queued := by
  unfold Machine.start at sent
  split at sent
  · rename_i queued
    split at sent
    · cases sent
    · cases sent
      exact queued
  · cases sent

theorem retry_sent_ticket {m : Machine r} {store : Store}
    (sent : (m.retry store).1 = .sent ticket f) : m.nextTicket = ticket := by
  unfold Machine.retry at sent
  split at sent
  · cases sent
  · split at sent
    · rename_i begun
      cases sent
      have given := reload_sent_ticket (congrArg Prod.fst begun)
      exact given
    · have given := reload_sent_ticket sent
      exact given

/-- A request is the first one of its reload, or it is made again because there was nothing to
confirm. -/
theorem sent_unbegun_or_again {e : Event} (sent : s.progress e = .sent ticket f) :
    s.machine.Unbegun ticket ∨ ∃ now o faults g, e = .move (.answer ticket now o) faults ∧
      s.Waits ticket g ∧ ConfirmsNothing r g o s.store ∧ f = { g with etag := none } := by
  cases e with
  | interference store => cases sent
  | move e faults =>
    cases e with
    | activate con => exact .inl (.inl (Nat.le_of_eq (activate_sent_ticket sent)))
    | refresh con => exact .inl (.inl (Nat.le_of_eq (refresh_sent_ticket sent)))
    | reload => exact .inl (.inl (Nat.le_of_eq (reload_sent_ticket sent)))
    | start k => exact .inl (.inr (start_sent_queued sent))
    | retry => exact .inl (.inl (Nat.le_of_eq (retry_sent_ticket sent)))
    | answer k now o =>
      right
      rcases waits_or_idle s k with ⟨g, waited⟩ | idle
      · rcases next_answer waited now o faults with ⟨reload, ended, -⟩ | ⟨again, rfl, -⟩
        · exact nomatch ended.symm.trans sent
        · obtain ⟨rfl, rfl⟩ := Progress.sent.inj (again.symm.trans sent)
          exact ⟨now, _, faults, g, rfl, waited, ⟨rfl, asked_of_again waited again⟩, rfl⟩
      · rw [Scene.progress, perform_answer_idle idle] at sent
        cases sent
    | clear => cases sent
    | shutdown => cases sent
    | abandon k => cases sent
    | fire => cases sent

/-- A reload that has begun stays so. -/
theorem Act.unbegun {i : Incident r} {a b : Scene r} (act : Act i a b)
    (h : b.machine.Unbegun ticket) : a.machine.Unbegun ticket := by
  have addJob {m : Machine r} {j : Job} (h : (m.addJob j).2.Unbegun ticket) :
      m.Unbegun ticket := by
    rcases h with unused | queued
    · exact .inl (Nat.le_of_succ_le unused)
    · have queued := (Machine.job?_setJob m.nextTicket ticket j m).symm.trans queued
      split at queued
      · rename_i hk
        exact .inl (Nat.le_of_eq hk.symm)
      · exact .inr queued
  have setJob {m : Machine r} {k : Nat} {g : Flight}
      (h : (m.setJob k (.fetching g)).Unbegun ticket) : m.Unbegun ticket := by
    refine h.imp_right fun queued => ?_
    rw [Machine.job?_setJob] at queued
    split at queued
    · cases queued
    · exact queued
  have endJob {m : Machine r} {k : Nat} (h : (m.endJob k).Unbegun ticket) :
      m.Unbegun ticket := by
    refine h.imp_right fun queued => ?_
    rw [Machine.job?_endJob] at queued
    split at queued
    · cases queued
    · exact queued
  cases act with
  | queued => exact addJob h
  | begun => exact addJob h
  | started => exact setJob h
  | abandoned => exact endJob h
  | settled => exact endJob h
  | again => exact setJob h
  | _ => exact h

theorem unbegun_of_next {e : Event} (h : (s.next e).machine.Unbegun ticket) :
    s.machine.Unbegun ticket :=
  acts_induction (I := fun s' => s'.machine.Unbegun ticket → s.machine.Unbegun ticket) id
    (fun _ _ act ih later => ih (act.unbegun later)) h

/-- Whoever waits has begun. -/
theorem Ticketed.begun {m : Machine r} (h : Ticketed m) (waits : m.job? ticket = some (.fetching f)) :
    ¬ m.Unbegun ticket := by
  rintro (unused | queued)
  · simp [h.unused ticket unused] at waits
  · simp [queued] at waits

/-! ## The requests of a reload -/

/-- What a reload has asked for in the course of a run. -/
structure Asking (ticket : Nat) (past : List (Incident r)) (s : Scene r) : Prop where
  requested : Requested past ticket (requestsOf ticket past)
  unbegun : s.machine.Unbegun ticket → requestsOf ticket past = []
  /-- It waits for the answer to its last request, its first one or the one without a condition. -/
  waits : ∀ f, s.Waits ticket f → requestsOf ticket past = [f] ∨
    f.etag = none ∧ ∃ first, requestsOf ticket past = [first, f]

namespace Asking

variable {e : Event}

/-- What was confirmed although there was nothing to confirm is the first request. -/
theorem once (h : Asking ticket past s) (waits : s.Waits ticket f) {o : Outcome Value}
    (confirms : ConfirmsNothing r f o s.store) : requestsOf ticket past = [f] := by
  refine (h.waits f waits).resolve_right fun ⟨unasked, _⟩ => ?_
  have asked := confirms.2.1
  simp [unasked] at asked

/-- The reload makes a request. -/
theorem of_sent (h : Asking ticket past s) (ticketed : Ticketed s.machine)
    (sent : s.progress e = .sent ticket f) : Asking ticket (⟨s, e⟩ :: past) (s.next e) := by
  have waits : (s.next e).Waits ticket f := waits_of_sent sent
  have only : ∀ g, (s.next e).Waits ticket g → g = f :=
    fun g hg => Job.fetching.inj (Option.some.inj (hg.symm.trans waits))
  have begun := (ticketed.next e).begun waits
  have made : requestsOf ticket (⟨s, e⟩ :: past) = requestsOf ticket past ++ [f] := by
    rw [requestsOf, Incident.request?_of_sent (i := ⟨s, e⟩) sent]
    rfl
  rcases sent_unbegun_or_again sent with fresh | ⟨now, o, faults, g, rfl, waited, confirms, rfl⟩
  · rw [h.unbegun fresh, List.nil_append] at made
    exact ⟨made ▸ .once f, fun unbegun => absurd unbegun begun,
      fun g hg => .inl (by rw [made, only g hg])⟩
  · rw [h.once waited confirms] at made
    refine ⟨?_, fun unbegun => absurd unbegun begun, fun f hf => .inr ?_⟩
    · rw [made]
      exact .twice g ⟨_, List.mem_cons_self, now, o, faults, rfl, waited, confirms⟩
    · rw [only f hf]
      exact ⟨rfl, g, made⟩

/-- Something else happens. -/
theorem of_unsent (h : Asking ticket past s) (unsent : ∀ f, s.progress e ≠ .sent ticket f) :
    Asking ticket (⟨s, e⟩ :: past) (s.next e) := by
  have same : requestsOf ticket (⟨s, e⟩ :: past) = requestsOf ticket past := by
    have none : (⟨s, e⟩ : Incident r).request? ticket = none :=
      Option.eq_none_iff_forall_not_mem.2 fun f hf =>
        unsent f (Incident.request?_eq_some (i := ⟨s, e⟩) hf)
    rw [requestsOf, none]
    exact List.append_nil _
  refine ⟨same ▸ h.requested.mono _, fun later => ?_, fun f waits => ?_⟩
  · rw [same]
    exact h.unbegun (unbegun_of_next later)
  · rw [same]
    exact h.waits f ((waits_next waits).resolve_left (unsent f))

end Asking

theorem Run.asking {policy : Policy} {store : Store} (run : Run Allowed (.new policy store) past s)
    (ticket : Nat) : Asking ticket past s := by
  induction run with
  | nil =>
    refine ⟨.none, fun _ => rfl, fun f waits => ?_⟩
    simp [Scene.Waits, Scene.new, Machine.job?] at waits
  | @cons past s e run _ ih =>
    by_cases sent : ∃ f, s.progress e = .sent ticket f
    · obtain ⟨f, sent⟩ := sent
      exact ih.of_sent run.ticketed sent
    · exact ih.of_unsent (not_exists.1 sent)

/-! ## Two requests at most -/

/-- An answer that confirms nothing leads to the same request without its condition, and any other
answer ends the reload. -/
theorem progress_answer (waited : s.Waits ticket f) (now : Moment) (o : Outcome Value)
    (faults : List StoreOperation) :
    let e := Event.move (.answer ticket now o) faults
    (ConfirmsNothing r f o s.store → s.progress e = .sent ticket { f with etag := none }) ∧
    (¬ ConfirmsNothing r f o s.store →
      ∃ reload, s.progress e = .ended reload ∧ (s.next e).machine.job? ticket = none) := by
  intro e
  unfold Scene.progress Scene.next
  rw [perform_answer waited]
  constructor
  · intro confirms
    rw [answer_of_confirmsNothing s.sync confirms]
  · intro other
    rcases answer_cases s.machine.policy now f o s.store s.sync with
      ⟨reload, store, y, answered, -⟩ | ⟨-, rfl, unusable, asked⟩
    · rw [answered]
      exact ⟨reload, rfl, (Machine.job?_endJob _ _ _).trans (if_pos rfl)⟩
    · exact absurd ⟨rfl, asked, unusable⟩ other

/-- A confirmation that nobody has asked for is a failure, unless the cache has something to
confirm. -/
theorem progress_unasked_confirmation (waited : s.Waits ticket f) (unasked : f.etag = none)
    (unusable : Cache.usable? r s.store f.con = none) (now : Moment)
    (faults : List StoreOperation) :
    s.progress (.move (.answer ticket now .notModified) faults) =
      .ended (if s.sync.isLatest f then .failed notModifiedCode else .superseded) := by
  unfold Scene.progress
  rw [perform_answer waited]
  cases latest : s.sync.isLatest f <;> simp [answer, unusable, unasked, settleFailure, latest]

/-- **Requests of a reload.** Whatever happens in a run, and whatever the store holds or fails in, a
reload makes at most two requests. A second one is the first without its condition, so it is for the
same con, and it is made only if the first had a condition, a confirmation came, and the cache had
nothing to confirm by then. Each answer to a request that waits ends the reload, but for that one;
so the answer to a second request ends it. A confirmation that comes to a request without a
condition ends it as failed if the cache has nothing to confirm, or as superseded if a later number
has been given out. -/
theorem reload_makes_two_requests_at_most {policy : Policy} {store : Store}
    (run : Run Allowed (.new policy store) past s) (ticket : Nat) :
    (requestsOf ticket past).length ≤ 2 ∧
    (∀ first second, requestsOf ticket past = [first, second] →
      second = { first with etag := none } ∧ first.etag.isSome = true ∧
        FoundNothing past ticket first) ∧
    ∀ f, s.Waits ticket f → (requestsOf ticket past).getLast? = some f ∧
      ∀ now o faults, let e := Event.move (.answer ticket now o) faults
        (requestsOf ticket past = [f] ∧ ConfirmsNothing r f o s.store ∧
            s.progress e = .sent ticket { f with etag := none } ∨
          ¬ ConfirmsNothing r f o s.store ∧
            ∃ reload, s.progress e = .ended reload ∧ (s.next e).machine.job? ticket = none) ∧
        (o = .notModified → f.etag = none →
          (∀ value etag, ¬ Cache.Holds r s.store f.con value etag) →
          s.progress e =
            .ended (if s.sync.isLatest f then .failed notModifiedCode else .superseded)) := by
  have asking := run.asking ticket
  refine ⟨asking.requested.length_le, fun first second two => ?_,
    fun f waits => ⟨?_, fun now o faults => ?_⟩⟩
  · have requested := asking.requested
    rw [two] at requested
    cases requested with
    | twice f found =>
      obtain ⟨i, mem, now, o, faults, event, waited, confirms⟩ := found
      exact ⟨rfl, confirms.2.1, i, mem, now, o, faults, event, waited, confirms⟩
  · rcases asking.waits f waits with one | ⟨-, first, two⟩
    · rw [one]
      rfl
    · rw [two]
      rfl
  · obtain ⟨again, ends⟩ := progress_answer waits now o faults
    refine ⟨?_, fun ho unasked absent => ?_⟩
    · by_cases confirms : ConfirmsNothing r f o s.store
      · exact .inl ⟨asking.once waits confirms, confirms, again confirms⟩
      · exact .inr ⟨confirms, ends confirms⟩
    · have unusable : Cache.usable? r s.store f.con = none :=
        Option.eq_none_iff_forall_not_mem.2 fun (value, etag) usable =>
          absent value etag (Cache.usable?_eq_some_iff.1 usable)
      subst ho
      exact progress_unasked_confirmation waits unasked unusable now faults

/-- The server confirms everything, the record is damaged, and it cannot be dropped. The reload asks
twice and fails. -/
theorem damaged_record_is_asked_about_twice :
    let record := "\x7b\"instance\":\"a\",\"etag\":\"v1\",\"value\":0\x7d"
    let start : Scene .pages := .new .standard
      { kind := .database, records := ({} : Records).insert (Cache.recordKey "pages") record
        failing := [.set, .remove] }
    let confirmed := Event.move (.answer 0 0 .notModified) []
    let s := start.afterAll [.move (.activate "a") [], confirmed]
    ∃ past, Run (fun _ _ => True) start past s ∧
      requestsOf 0 past = [⟨"a", 1, some "v1"⟩, ⟨"a", 1, none⟩] ∧ s.store = start.store ∧
      s.progress confirmed = .ended (.failed 304) := by
  intro record start confirmed s
  have run : Run (fun _ _ => True) start _ s := (Run.nil.cons trivial).cons trivial
  have waits : s.Waits 0 ⟨"a", 1, none⟩ := by decide
  have unusable : Cache.usable? .pages s.store "a" = none := by decide
  have absent : ∀ value etag, ¬ Cache.Holds .pages s.store "a" value etag := fun value etag holds =>
    nomatch unusable.symm.trans (Cache.usable?_eq_some_iff.2 holds)
  obtain ⟨-, -, answered⟩ := reload_makes_two_requests_at_most run 0
  have failed := ((answered _ waits).2 0 .notModified []).2 rfl rfl absent
  refine ⟨_, run, by decide, by decide, ?_⟩
  rw [failed, if_pos (by decide)]
  rfl

end OfflineSchedule.Sync
