import OfflineSchedule.Proofs.Watch.Run
/-!
# The con in the header

A summary names the con of the header, and shows what readers see of each resource: that belongs to
the con which the resource has selected. The two are copies of one selection. The loop sets the con
of the header at once, and puts it on the channel; the follower takes it up later, not before an
activation that is under way has ended, and activates it for one resource after the other. So what
is shown of a resource belongs to the header if the follower has come to it
(`Session.HasFollowed`), and may belong to another con if it has not.
-/

namespace OfflineSchedule

open Convention (Deed Stage incidents)
open Sync (Failed Incident Source Status)
open Time (Instant)
open Turns (Following Server World)

/-! ## What a summary shows -/

namespace Summary

/-- What is said of a resource, if the con has it. -/
def status? (s : Summary) : Resource → Option Status
  | .events => some s.eventsStatus
  | .info => some s.infoStatus
  | .pages => some s.pagesStatus
  | .announcements => s.announcementsStatus

/-- What is listed, or named, of a resource. -/
def data (s : Summary) : (r : Resource) → r.Live
  | .events => s.events
  | .info => s.info
  | .pages => s.pages
  | .announcements => s.announcements

/-- Whatever a summary shows of a resource comes from a con. -/
inductive Shows {r : Resource} (past : List (Incident r)) (con : String) (shown : Summary) :
    Prop where
  | pending (status : shown.status? r = some .pending) (data : shown.data r = r.empty)
  /-- A value that was fetched for the con, or kept for it. -/
  | value (status : shown.status? r = some .success) (source : Source past con (shown.data r))
  /-- A fetch for the con has failed. -/
  | failure {code : Nat} (status : shown.status? r = some .error)
      (data : shown.data r = r.empty) (failed : Failed past con code)

/-- Whatever a summary shows comes from a con, the verdict that there is no such con included. -/
structure IsAbout (past : List Deed) (con : String) (shown : Summary) : Prop where
  present : ∀ r, (shown.status? r).isSome = true → shown.Shows (incidents r past) con
  absent : ∀ r, shown.status? r = none → shown.data r = r.empty
  verdict : shown.notFound = true → ∃ r, Failed (incidents r past) con 404

theorem status?_summary (c : Convention) (name : String) (now : Instant) (r : Resource) :
    (c.summary name now).status? r = c.status? r := by
  cases r <;> rfl

theorem data_summary (c : Convention) (name : String) (now : Instant) (r : Resource) :
    (c.summary name now).data r = c.data r := by
  cases r <;> rfl

end Summary

namespace Watch

variable {policy : Retry.Policy} {hasAnnouncements : Bool} {store : Store} {server : Server}
  {con : String} {past : List Deed} {s : Session} {f : Following}

namespace Session

/-- The con that a resource has selected. -/
def selected (r : Resource) (s : Session) : Option String := (s.convention.get r).sync.selected

/-- The follower has taken up the con that was selected last, and has activated it for a
resource. -/
def HasFollowed (f : Following) (r : Resource) (s : Session) : Prop :=
  r ∉ f.todo ∧ ∃ c, s.world.channel? 0 = some c ∧ c.isNew = false

theorem IsRegular.convention (h : s.IsRegular) : s.convention = s.world.stage.convention := by
  rw [Session.convention, World.current, h.world.one]
  rfl

end Session

namespace Run

theorem stage (run : Run (.start policy hasAnnouncements store server con) past (s, f)) :
    Convention.Run (fun _ _ _ => True) (.new policy hasAnnouncements store) past s.world.stage :=
  run.world.convention (begins_start ..)

/-- What readers see of a resource belongs to the con that it has selected. -/
theorem current (run : Run (.start policy hasAnnouncements store server con) past (s, f))
    (r : Resource) :
    (s.convention.get r).sync.current = .pending ∨
    (∃ con value etag, s.selected r = some con ∧
      (s.convention.get r).sync.current = .success value etag ∧
      Source (incidents r past) con value) ∨
    ∃ con code, s.selected r = some con ∧ (s.convention.get r).sync.current = .error code ∧
      Failed (incidents r past) con code := by
  have scene : Sync.Run (fun _ _ => True) (.new policy store) (incidents r past)
      (s.world.stage.scene r) := run.stage.scene fun _ _ _ _ _ _ => trivial
  rw [Session.selected, (run.regular (isRegular_start ..)).convention]
  exact scene.sourced.current

/-- A resource that the follower has come to has selected the con of the header. -/
theorem selected_eq (run : Run (.start policy hasAnnouncements store server con) past (s, f))
    {r : Resource} (has : s.convention.has r = true) (followed : s.HasFollowed f r) :
    s.selected r = some s.con := by
  obtain ⟨done, c, channel, seen⟩ := followed
  have regular := run.regular (isRegular_start ..)
  have same : c.con = s.con := by
    have selection := regular.selection
    rw [World.selection?, channel] at selection
    exact Option.some.inj selection
  rw [regular.convention] at has
  rw [Session.selected, regular.convention, ← same]
  exact run.world.selected_eq (begins_start ..) channel seen has done

/-- What a summary shows of a resource comes from the con that it has selected. -/
theorem shows (run : Run (.start policy hasAnnouncements store server con) past (s, f))
    (now : Instant) {r : Resource} (has : s.convention.has r = true) :
    let shown := s.convention.summary s.con now
    (shown.status? r = some .pending ∧ shown.data r = r.empty) ∨
      ∃ con, s.selected r = some con ∧ shown.Shows (incidents r past) con := by
  intro shown
  have status : shown.status? r = some (s.convention.get r).sync.current.status := by
    rw [Summary.status?_summary, Convention.status?, if_pos has]
    rfl
  have data : shown.data r = (s.convention.get r).sync.current.valueOr r.empty := by
    rw [Summary.data_summary, Convention.data, if_pos has]
    rfl
  rcases run.current r with hc | ⟨con, value, etag, selected, hc, source⟩ |
    ⟨con, code, selected, hc, failed⟩
  · rw [hc] at status data
    exact .inl ⟨status, data⟩
  · rw [hc] at status data
    refine .inr ⟨con, selected, .value status ?_⟩
    rw [data]
    exact source
  · rw [hc] at status data
    exact .inr ⟨con, selected, .failure status data failed⟩

/-- The verdict that there is no such con is that of a resource about the con which it has
selected. -/
theorem verdict (run : Run (.start policy hasAnnouncements store server con) past (s, f))
    (h : s.convention.isNotFound = true) : ∃ r con, s.convention.has r = true ∧
      s.selected r = some con ∧ Failed (incidents r past) con 404 := by
  obtain ⟨r, mem, notFound⟩ := List.any_eq_true.1 h
  have has := (List.mem_filter.1 mem).2
  rw [Sync.isNotFound] at notFound
  -- Only a failure can say so.
  rcases run.current r with hc | ⟨con, value, etag, -, hc, -⟩ | ⟨con, code, selected, hc, failed⟩
  · rw [hc] at notFound
    cases notFound
  · rw [hc] at notFound
    cases notFound
  · rw [hc] at notFound
    have code_eq : code = 404 := by simpa [Sync.Published.isNotFound] using notFound
    exact ⟨r, con, has, selected, code_eq ▸ failed⟩

end Run

/-! ## The header -/

/-- **The header and what is shown below it.** Whatever happens in a session, what a summary shows
of a resource comes from the con that the resource has selected, which is the con of the header if
the follower has come to the resource with it. So a summary shows only the con of its header once
the follower has taken that con up and has activated it for all resources. -/
theorem summary_shows_followed_con
    (run : Run (.start policy hasAnnouncements store server con) past (s, f)) (now : Instant) :
    let shown := s.convention.summary s.con now
    (∀ r, s.convention.has r = true →
      (shown.status? r = some .pending ∧ shown.data r = r.empty ∨
        ∃ con, s.selected r = some con ∧ shown.Shows (incidents r past) con) ∧
      (s.HasFollowed f r → s.selected r = some s.con ∧ shown.Shows (incidents r past) s.con)) ∧
    (shown.notFound = true → ∃ r con, s.convention.has r = true ∧ s.selected r = some con ∧
      Failed (incidents r past) con 404) ∧
    ((∀ r, s.convention.has r = true → s.HasFollowed f r) → shown.IsAbout past s.con) := by
  intro shown
  have followed : ∀ r, s.convention.has r = true → s.HasFollowed f r →
      s.selected r = some s.con ∧ shown.Shows (incidents r past) s.con := by
    intro r has followed
    have selected := run.selected_eq has followed
    refine ⟨selected, ?_⟩
    rcases run.shows now has with ⟨status, data⟩ | ⟨con, selected', shows⟩
    · exact .pending status data
    · rw [selected] at selected'
      cases selected'
      exact shows
  have has_of_status : ∀ r, s.convention.has r = (shown.status? r).isSome := by
    intro r
    rw [Summary.status?_summary, Convention.status?]
    cases s.convention.has r <;> rfl
  refine ⟨fun r has => ⟨run.shows now has, followed r has⟩, run.verdict, fun all => ⟨?_, ?_, ?_⟩⟩
  · intro r present
    have has := (has_of_status r).trans present
    exact (followed r has (all r has)).2
  · intro r absent
    have has : s.convention.has r = false := by rw [has_of_status, absent]; rfl
    rw [Summary.data_summary, Convention.data, if_neg (by simp [has])]
  · intro notFound
    obtain ⟨r, con, has, selected, failed⟩ := run.verdict notFound
    rw [(followed r has (all r has)).1] at selected
    cases selected
    exact ⟨r, failed⟩

/-- The follower has activated con "a" for one resource, and an answer has come: what is shown of
that resource comes from con "a", while the other resources are still to do. -/
theorem followed_con_is_shown :
    let start : Session := .start .standard false { kind := .database } (.scripted {}) "a"
    ∃ past s f, Run start past (s, f) ∧ s.convention.has .info = true ∧ s.HasFollowed f .info ∧
      .pages ∈ f.todo ∧ s.selected .info = some "a" ∧
      (s.convention.summary s.con ⟨0, 0⟩).Shows (incidents .info past) "a" := by
  intro start
  have begins := isRegular_start .standard false { kind := .database } (.scripted {}) "a"
  have channel : start.world.channel? 0 = some { con := "a" } := rfl
  have info : Resource.info ∈ (start.world.convention 0).resources := by decide +kernel
  let o : Sync.Move := .answer 0 0 (.success (.object [("name", .string "Alpha Con")]) none false)
  have run : Run start [] (start, {}) := .nil
  have run := ((run.look begins channel).activate begins rfl info).move begins .info (m := o) rfl
  refine ⟨_, _, _, run, rfl, ⟨by decide +kernel, _, rfl, rfl⟩, by decide +kernel, ?_⟩
  exact ((summary_shows_followed_con run ⟨0, 0⟩).1 .info rfl).2 ⟨by decide +kernel, _, rfl, rfl⟩

/-! ### The gap -/

/-- The reload waits for an answer about a con. -/
def asksAbout (con : String) : Sync.Job → Bool
  | .fetching f => f.con = con
  | .queued => false

/-- Nothing comes from a con that was not asked about and of which nothing is kept. -/
theorem not_source_of_unasked {r : Resource} {past : List (Incident r)} {con : String}
    {value : r.Live}
    (unasked : ∀ i ∈ past, ∀ j ∈ i.before.machine.jobs, asksAbout con j.2 = false)
    (unkept : ∀ i ∈ past, Cache.record? r i.before.store = none) : ¬Source past con value := by
  rintro (⟨⟨i, mem, ticket, -, -, -, waits, -⟩, rfl, -⟩ | ⟨mem, kept, -, -⟩)
  · obtain ⟨j, found, fetching⟩ := Option.map_eq_some_iff.1 waits
    have unasked := unasked i mem j (List.mem_of_find?_eq_some found)
    rw [fetching] at unasked
    simp [asksAbout] at unasked
  · rw [Cache.get, Cache.text?_of_record?_none (unkept _ mem)] at kept
    cases kept

/-- The follower has taken up con "a" and activated it for one resource, which was answered; the
others are still to do when the user selects con "b". The name of con "a" is shown under the header
of con "b", about which nobody was asked. -/
theorem summary_names_other_con :
    let start : Session := .start .standard false { kind := .database } (.scripted {}) "a"
    let now : Instant := ⟨0, 0⟩
    ∃ past s f, Run start past (s, f) ∧ s.con = "b" ∧
      (s.convention.summary s.con now).lines = ["Alpha Con (b)",
        "  events:        pending (0 total, 0 upcoming)", "  info:          success",
        "  pages:         pending (0)"] ∧
      ¬(s.convention.summary s.con now).IsAbout past s.con := by
  intro start now
  have begins := isRegular_start .standard false { kind := .database } (.scripted {}) "a"
  have channel : start.world.channel? 0 = some { con := "a" } := rfl
  have info : Resource.info ∈ (start.world.convention 0).resources := by decide +kernel
  let o : Sync.Move := .answer 0 0 (.success (.object [("name", .string "Alpha Con")]) none false)
  have run : Run start [] (start, {}) := .nil
  have run := ((run.look begins channel).activate begins rfl info).move begins .info (m := o) rfl
  have run := run.change (.send [.line "use b"]) .refl
  have used : Action.ofLine "use b" = .ok (.use "b") := by decide +kernel
  have run := run.use now (by decide +kernel) (by decide +kernel) rfl used
  refine ⟨_, _, _, run, rfl, by decide +kernel, fun about => ?_⟩
  have shows := about.present .info (by decide +kernel)
  cases shows with
  | pending status => exact absurd status (by decide +kernel)
  | failure status => exact absurd status (by decide +kernel)
  | value _ source => exact not_source_of_unasked (by decide +kernel) (by decide +kernel) source

/-- While the pages of con "a" are slow to come, the follower does not even look for con "b". -/
example :
    let server : Server := .scripted { queued :=
      [(.info, ⟨0, .success (.object [("name", .string "Alpha Con")]) none false⟩),
        (.pages, ⟨5000000000, .success (.array []) none false⟩)] }
    let s := ((Session.start .standard false { kind := .database } server "a").settle.use "b").settle
    (s.convention.summary s.con ⟨0, 0⟩).head = ["Alpha Con (b)",
      "  events:        error (0 total, 0 upcoming)", "  info:          success",
      "  pages:         pending (0)"] := by
  decide +kernel

end Watch

end OfflineSchedule
