import OfflineSchedule.Proofs.Convention.Run
import OfflineSchedule.Proofs.Sync.OneByOne
import OfflineSchedule.Proofs.Sync.Restart
/-!
# Data survive a restart

What the server sent last is what a new con begins with. As long as one thing is asked for at a time
the record of each resource is that of its last fresh answer, and a new con over the same store
shows what the record holds, although it gets no answer at all.
-/

namespace OfflineSchedule.Convention

open Sync (Move lastFresh?)

variable {r : Resource} {s : Stage} {past : List Deed}

/-- A resource is asked for something, or its record is cleared, only while nothing of it is
outstanding: no reload, no retry that is due, and no timer. What the con is asked for concerns each
of its resources, and nothing else has to be over when the first of them begins. -/
def OneByOne (s : Stage) (r : Resource) (m : Move) : Prop :=
  (Sync.Event.move m s.store.failing).isUnasked = false ∨
    (Sync.Event.move m s.store.failing).isClear = true → (s.scene r).machine.outstanding = 0

/-- Every request fails, and nothing is cleared. -/
def Offline (_ : Stage) (r : Resource) (m : Move) : Prop :=
  m ≠ .clear ∧ ∀ ticket now o, m = .answer ticket now o → Sync.IsFailure r o

section

variable {policy : Retry.Policy} {hasAnnouncements : Bool} {store : Store}

/-- One thing at a time for the con is one thing at a time for each resource. -/
theorem Run.oneByOne (run : Run OneByOne (.new policy hasAnnouncements store) past s) :
    Sync.Run Sync.OneByOne (.new policy store) (incidents r past) (s.scene r) := by
  refine run.scene fun past s other m _ allowed => ?_
  by_cases h : other = r
  · subst h
    rw [Deed.event, if_pos rfl]
    exact ⟨rfl, allowed⟩
  · rw [Deed.event, if_neg h]
    obtain ⟨kind, failing⟩ := s.keeps_next other m
    exact ⟨kind, failing, s.record?_next_of_ne (Ne.symm h) m⟩

/-- A con whose requests fail has resources whose requests fail. -/
theorem Run.offline (readable : .get ∉ store.failing)
    (run : Run Offline (.new policy hasAnnouncements store) past s) :
    Sync.Run Sync.Offline (.new policy store) (incidents r past) (s.scene r) := by
  refine run.scene fun past s other m run allowed => ?_
  have failing : s.store.failing = store.failing := run.keeps.2
  by_cases h : other = r
  · subst h
    rw [Deed.event, if_pos rfl]
    refine ⟨failing ▸ readable, fun m' faults event => ?_⟩
    cases event
    exact allowed
  · rw [Deed.event, if_neg h]
    have failing' : (s.next other m).store.failing = store.failing :=
      (s.keeps_next other m).2.trans failing
    refine ⟨⟨failing' ▸ readable, s.record?_next_of_ne (Ne.symm h) m⟩, fun m' faults event => ?_⟩
    cases event

end

/-- What a con shows of a resource that it has. -/
theorem shown_of_current {c : Convention} {value : r.Live} {etag : Option String}
    (h : (c.get r).sync.current = .success value etag) :
    (c.get r).sync.status = .success ∧
      (c.has r = true → c.status? r = some .success ∧ c.data r = value) := by
  have status : (c.get r).sync.status = .success := by rw [Sync.status, h]; rfl
  refine ⟨status, fun has => ⟨?_, ?_⟩⟩
  · rw [status?, if_pos has, status]
  · rw [data, if_pos has, Sync.dataOr, h]
    rfl

/-- **Data survive a restart.** Let one thing at a time be asked of a con over a store that never
fails, and let the last fresh answer for a resource since its record was cleared have brought a
value whose instants can be read. Then a new con over the same store, every request of which fails,
finds the value as soon as its con is activated and leaves a revalidation to the background; it
shows exactly that value with that etag whenever its con is selected; and the revalidation, and
every other request for the con, is made under the etag of the value. -/
theorem fresh_data_survive_restart {policy policy' : Retry.Policy}
    {hasAnnouncements hasAnnouncements' : Bool} {store : Store} (sound : store.IsSound)
    (run : Run OneByOne (.new policy hasAnnouncements store) past s)
    {kept : Envelope r.Live} (last : lastFresh? (incidents r past) = some kept)
    (readable : ∀ t ∈ r.instants kept.value, t.IsReadable) :
    let start := Stage.new policy' hasAnnouncements' s.store
    let activated := start.next r (.activate kept.con)
    (start.progress r (.activate kept.con) = .cached (some 0) ∧
      (activated.scene r).machine.job? 0 = some .queued ∧
      (activated.scene r).sync.selected = some kept.con) ∧
    ∀ later s', Run Offline start later s' →
      ((s'.scene r).sync.selected = some kept.con →
        (s'.scene r).sync.status = .success ∧
        (s'.scene r).sync.current = .success kept.value kept.etag ∧
        (s'.convention.has r = true → s'.convention.status? r = some .success ∧
          s'.convention.data r = kept.value) ∧
        ∀ k, (s'.scene r).machine.job? k = some .queued →
          ∃ number, s'.progress r (.start k) = .sent k ⟨kept.con, number, kept.etag⟩) ∧
      ∀ m k f, Offline s' r m → s'.progress r m = .sent k f → f.con = kept.con →
        f.etag = kept.etag := by
  intro start activated
  have recorded : Sync.Recorded (incidents r past) (s.scene r) := run.oneByOne.recorded sound
  have record := recorded.record kept last readable
  have decoded := Sync.decoded_of_lastFresh? last readable
  have reads : .get ∉ s.store.failing := recorded.sound.readable
  refine ⟨?_, fun later s' offline => ?_⟩
  · obtain ⟨progress, queued, selected⟩ := Sync.activate_new policy' reads record decoded
      s.store.failing
    rw [← Stage.scene_new policy' hasAnnouncements' s.store] at progress queued selected
    rw [show s.store.failing = start.store.failing from rfl, ← Stage.scene_next_self]
      at queued selected
    exact ⟨progress, queued, selected⟩
  · have offline : Sync.Run Sync.Offline (.new policy' s.store) (incidents r later)
        (s'.scene r) := offline.offline reads
    have restored := offline.restored reads record decoded
    refine ⟨fun selected => ?_, fun m k f allowed sent con => ?_⟩
    · have current := offline.restored_current reads record decoded selected
      obtain ⟨status, shown⟩ := shown_of_current (c := s'.convention) current
      refine ⟨status, current, shown, fun k queued => ?_⟩
      have sent : s'.progress r (.start k) =
          .sent k ((s'.scene r).sync.request kept.con s'.store) :=
        Sync.start_queued (s := s'.scene r) queued selected s'.store.failing
      have etag : Cache.etag? r s'.store kept.con = kept.etag :=
        Cache.etag?_of_kept restored.readable restored.record
      exact ⟨_, sent.trans (by rw [Sync.request, etag])⟩
    · refine restored.sent (e := .move m s'.store.failing) ⟨restored.readable, ?_⟩ sent con
      intro m' faults event
      cases event
      exact allowed

/-- An announcement, posted at ten o'clock in UTC, is there after a restart without the server. -/
theorem announcement_survives_restart :
    let posted : Json.Value := .object [("id", .string "1"), ("title", .string "\"Doors\""),
      ("body", .string ""), ("postedAt", .string "2026-07-04T12:00:00+02:00")]
    let start := Stage.new .standard true { kind := .memory none }
    let answer : Move := .answer 0 0 (.success (.array [posted]) (some "v1") false)
    let s := (start.next .announcements (.activate "a")).next .announcements answer
    let start' := Stage.new .standard true s.store
    let s' := ((start'.next .announcements (.activate "a")).next .announcements (.start 0)).next
      .announcements (.answer 0 0 (.error 503))
    ∃ past later kept, Run OneByOne start past s ∧
      lastFresh? (incidents .announcements past) = some kept ∧
      (∀ t ∈ Resource.instants .announcements kept.value, t.IsReadable) ∧
      Run Offline start' later s' ∧
      s'.convention.data .announcements = kept.value ∧ kept.value ≠ [] := by
  intro posted start answer s start' s'
  have none : Run OneByOne start [] start := .nil
  have run := none.cons (r := .announcements) (m := .activate "a") (fun _ => rfl)
  have run := run.cons (r := .announcements) (m := answer) (by rintro (h | h) <;> cases h)
  have none : Run Offline start' [] start' := .nil
  have later := none.cons (r := .announcements) (m := .activate "a") ⟨nofun, nofun⟩
  have later := later.cons (r := .announcements) (m := .start 0) ⟨nofun, nofun⟩
  have later := later.cons (r := .announcements) (m := .answer 0 0 (.error 503))
    ⟨nofun, fun _ _ _ h => by cases h; trivial⟩
  let kept : Envelope (List Announcement) :=
    ⟨⟨"a", some "v1"⟩, [⟨"1", "\"Doors\"", "", ⟨1783159200, 0⟩⟩]⟩
  have last : lastFresh? (incidents .announcements [⟨start.next .announcements (.activate "a"),
      .announcements, answer⟩, ⟨start, .announcements, .activate "a"⟩]) = some kept := by
    decide +kernel
  have readable : ∀ t ∈ Resource.instants .announcements kept.value, t.IsReadable := by
    decide +kernel
  have sound : start.store.IsSound := ⟨rfl, .inl rfl⟩
  have selected : (s'.scene .announcements).sync.selected = some "a" := by
    simp only [s', Stage.scene_next_self, Sync.selected_next, Sync.Event.activated?, Move.activated?,
      Option.none_or, Option.some_or]
  obtain ⟨-, -, shown, -⟩ :=
    ((fresh_data_survive_restart sound run last readable).2 _ s' later).1 selected
  have has : s'.convention.has .announcements = true := later.has .announcements
  exact ⟨_, _, kept, run, last, readable, later, (shown has).2, by simp [kept]⟩

end OfflineSchedule.Convention
