import OfflineSchedule.Client.Host
import OfflineSchedule.Proofs.Client.Local
/-!
# Showing and reloading agree

To show a con activates all of its resources and then waits for what has been left to the
background; to reload it refreshes one resource after the other. For a resource that nothing has
happened to it is the same (`refresh_eq`). What is left is the order: without a quota a resource
does not notice what the others have done in between, and a store with a quota is empty at first, so
that nothing is left to the background.
-/

namespace OfflineSchedule

open Convention (Stage)
open Http (Outcome)
open Json (Value)
open Sync (Flight Machine Move Progress Reload Scene)
open Time (Instant)

/-! ## Synchronizers that begin -/

namespace Sync.Machine

variable {r : Resource}

/-- A synchronizer that begins makes its first request at once, or leaves it to the background. To
refresh a con makes no difference, except that the background is waited for. -/
theorem activate_new (policy : Retry.Policy) (con : String) (store : Store)
    (faults : List StoreOperation) :
    let m : Machine r := { policy }
    (∃ f m', m.activate con store faults = (.sent 0 f, m') ∧
      m.refresh con store faults = (.sent 0 f, m') ∧ m'.job? 0 = some (.fetching f)) ∨
    ∃ m', (Cache.usable? r store con).isSome = true ∧
      m.activate con store faults = (.cached (some 0), m') ∧
      m.refresh con store faults = (.joined 0, m') ∧ m'.job? 0 = some .queued ∧
      m'.sync.selected = some con := by
  intro m
  rcases activate_cases con store m.sync with ⟨showing, -⟩ | ⟨-, -, missed⟩ |
    ⟨value, etag, -, usable, found⟩
  · cases showing
  · have sent : m.activate con store faults =
        (.sent 0 (m.sync.request con { store with failing := faults }),
          ({ m with sync := m.sync.begun con }.addJob
            (.fetching (m.sync.request con { store with failing := faults }))).2) := by
      simp only [activate, missed, reload, issue_select]
      rfl
    refine .inl ⟨_, _, sent, ?_, rfl⟩
    rw [refresh, sent]
  · have cached : m.activate con store faults =
        (.cached (some 0), ({ m with sync := m.sync.found con value etag }.addJob .queued).2) := by
      rw [activate, found]
      rfl
    refine .inr ⟨_, by rw [usable]; rfl, cached, ?_, rfl, selected_select con m.sync⟩
    rw [refresh, cached]

/-- A reload that waits in the background makes its request when it begins. -/
theorem start_queued {m : Machine r} {ticket : Nat} {con : String}
    (queued : m.job? ticket = some .queued) (selected : m.sync.selected = some con)
    (store : Store) :
    ∃ f m', m.start ticket store = (.sent ticket f, m') ∧
      m'.job? ticket = some (.fetching f) := by
  rw [start, queued, issue_of_selected selected]
  exact ⟨_, _, rfl, (job?_setJob ..).trans (if_pos rfl)⟩

end Sync.Machine

/-- A con is told by its resources. -/
theorem Convention.ext_get {c c' : Convention} (get : ∀ r, c.get r = c'.get r)
    (has : c.hasAnnouncements = c'.hasAnnouncements) : c = c' := by
  obtain ⟨events, info, pages, announcements, hasAnnouncements⟩ := c
  obtain ⟨events', info', pages', announcements', hasAnnouncements'⟩ := c'
  congr
  · exact get .events
  · exact get .info
  · exact get .pages
  · exact get .announcements

namespace Client

variable {r : Resource} {answers : Resource → String → Option String → Nat → Outcome Value}
  {c c' : Client (List Asked)}

/-! ## Resources that nothing has happened to -/

section

variable {σ : Type} {v : Service σ} {c : Client σ} {con : String} {policy : Retry.Policy}

/-- A move that leaves the store as it is. -/
theorem act_beside {m : Move} {p : Progress} {x : Machine r}
    (h : (c.convention.get r).step m c.store c.store.failing = Machine.beside c.store (p, x)) :
    c.act r m = (p, { c with convention := c.convention.set r x }) := by
  simp [Client.act, Convention.step, Machine.beside, h]

/-- An answer ends a reload, or leads to a request without a condition. -/
theorem answered_cases {ticket : Nat} {f : Flight} (waits : (c.stage.scene r).Waits ticket f) :
    (∃ reload, (c.answered v r ticket f).1 = .ended reload) ∨
      f.etag.isSome = true ∧ (c.answered v r ticket f).1 = .sent ticket { f with etag := none } ∧
      ((c.answered v r ticket f).2.stage.scene r).Waits ticket { f with etag := none } := by
  unfold Client.answered
  generalize v.ask r f.con f.etag c.server = answer
  rw [progress_act, scene_act]
  rcases Sync.next_answer waits 0 answer.1 c.store.failing with ⟨reload, ended, -⟩ | ⟨again, -⟩
  · exact .inl ⟨reload, ended⟩
  · exact .inr ⟨(Sync.asked_of_again waits again).1, again,
      (Sync.waits_answered waits 0 answer.1 c.store.failing _).2 again⟩

/-- After the requests that it may make a reload has ended. -/
theorem carry_ended {ticket : Nat} {f : Flight} (waits : (c.stage.scene r).Waits ticket f) :
    ∃ reload, (c.carry v r requestLimit (.sent ticket f)).1 = .ended reload := by
  rw [requestLimit, carry_sent]
  rcases answered_cases (v := v) waits with ⟨reload, ended⟩ | ⟨-, again, waits⟩
  · rw [ended]
    exact ⟨reload, rfl⟩
  · rw [again, carry_sent]
    rcases answered_cases (v := v) waits with ⟨reload, ended⟩ | ⟨asked, -⟩
    · rw [ended]
      exact ⟨reload, rfl⟩
    · cases asked

/-- To activate a con for a resource and to wait for what that leaves to the background. -/
def displayed (v : Service σ) (con : String) (r : Resource) (c : Client σ) :
    Progress × Client σ :=
  await v (c.perform v r (.activate con)).1 r (c.perform v r (.activate con)).2

/-- Nothing has happened to the resource. -/
def IsNew (policy : Retry.Policy) (c : Client σ) (r : Resource) : Prop :=
  c.convention.get r = { policy }

/-- A reload in the background that begins is carried through. -/
theorem perform_start {ticket : Nat}
    (queued : (c.convention.get r).job? ticket = some .queued)
    (selected : (c.convention.get r).sync.selected = some con) :
    ∃ reload, (c.perform v r (.start ticket)).1 = .ended reload := by
  obtain ⟨f, m, started, job⟩ := Machine.start_queued queued selected c.store
  rw [perform_eq, act_beside (m := .start ticket) (congrArg (Machine.beside c.store) started)]
  refine carry_ended ?_
  simpa [Scene.Waits, stage, Stage.scene] using job

/-- At first it makes no difference whether a con is displayed or refreshed. -/
theorem refresh_eq (v : Service σ) (con : String) (new : c.IsNew policy r) :
    refresh v con r c = displayed v con r c ∧
      (∃ reload, (refresh v con r c).1 = .ended reload) ∧
      (Cache.usable? r c.store con = none →
        c.perform v r (.activate con) = refresh v con r c) := by
  rcases Machine.activate_new (r := r) policy con c.store c.store.failing with
    ⟨f, m, activated, refreshed, job⟩ | ⟨m, usable, activated, refreshed, queued, selected⟩
  all_goals
    rw [← new] at activated refreshed
    have activated := act_beside (m := .activate con) (congrArg (Machine.beside c.store) activated)
    have refreshed := act_beside (m := .refresh con) (congrArg (Machine.beside c.store) refreshed)
  · have waits : (stage { c with convention := c.convention.set r m }).scene r |>.Waits 0 f := by
      simpa [Scene.Waits, stage, Stage.scene] using job
    obtain ⟨reload, ended⟩ := carry_ended (v := v) waits
    rw [displayed, refresh_join, perform_eq, perform_eq, activated, refreshed]
    dsimp only
    rw [ended]
    exact ⟨rfl, ⟨reload, rfl⟩, fun _ => Prod.ext ended rfl⟩
  · have started := perform_start (r := r) (v := v)
      (c := { c with convention := c.convention.set r m }) (by simpa using queued)
      (by simpa using selected)
    rw [displayed, refresh_join, perform_eq, perform_eq, activated, refreshed,
      carry_of_ne (by rintro _ _ ⟨⟩), carry_of_ne (by rintro _ _ ⟨⟩)]
    refine ⟨rfl, started, fun missing => ?_⟩
    rw [missing] at usable
    cases usable

end

/-! ## One resource after another -/

section

variable {policy : Retry.Policy} {rs : List Resource}
  (answers : Resource → String → Option String → Nat → Outcome Value) (con : String)

theorem Local.displayed : Local (displayed (.answering answers) con) :=
  (perform answers (.activate con)).bind await

/-- Whatever is done for a resource, the others do not notice it. -/
theorem IsNew.of_alike (new : c'.IsNew policy r) (h : Alike r c c') : c.IsNew policy r :=
  h.scene.machine.trans new

theorem IsNew.refresh {other : Resource} (ne : r ≠ other) (new : c.IsNew policy r)
    (new' : c.IsNew policy other) :
    (refresh (.answering answers) con other c).2.IsNew policy r := by
  rw [(refresh_eq _ con new').1]
  exact new.of_alike ((Local.displayed answers con).other r other c ne)

/-- Every reload has ended. -/
theorem forEach_refresh (distinct : rs.Nodup) (new : ∀ r ∈ rs, c.IsNew policy r) :
    forEach (refresh (.answering answers) con) rs c =
        forEach (displayed (.answering answers) con) rs c ∧
      ∃ ends : List (Resource × Reload), ends.map (·.1) = rs ∧
        (forEach (refresh (.answering answers) con) rs c).1 =
          ends.map fun e => (e.1, .ended e.2) := by
  induction rs generalizing c with
  | nil => exact ⟨rfl, [], rfl, rfl⟩
  | cons r rs ih =>
    obtain ⟨notIn, distinct⟩ := List.nodup_cons.1 distinct
    have newR := new r List.mem_cons_self
    obtain ⟨same, ⟨reload, ended⟩, -⟩ := refresh_eq (.answering answers) con newR
    have later : ∀ other ∈ rs, (refresh (.answering answers) con r c).2.IsNew policy other :=
      fun other mem => (new other (List.mem_cons_of_mem r mem)).refresh answers con
        (fun h => notIn (h ▸ mem)) newR
    obtain ⟨sameRest, ends, names, results⟩ := ih distinct later
    refine ⟨?_, (r, reload) :: ends, congrArg (r :: ·) names, ?_⟩
    · rw [forEach_cons, forEach_cons, ← same, sameRest]
    · rw [forEach_cons, ended, results]
      rfl

/-- If nothing is cached, nothing is left to the background. -/
theorem forEach_activate (distinct : rs.Nodup) (new : ∀ r ∈ rs, c.IsNew policy r)
    (empty : ∀ r ∈ rs, Cache.record? r c.store = none) :
    forEach (fun r c => c.perform (.answering answers) r (.activate con)) rs c =
      forEach (refresh (.answering answers) con) rs c := by
  induction rs generalizing c with
  | nil => rfl
  | cons r rs ih =>
    obtain ⟨notIn, distinct⟩ := List.nodup_cons.1 distinct
    have newR := new r List.mem_cons_self
    obtain ⟨same, -, missed⟩ := refresh_eq (.answering answers) con newR
    have missing := Cache.usable?_of_record?_none (empty r List.mem_cons_self) con
    have apart : ∀ other ∈ rs, other ≠ r := fun other mem h => notIn (h ▸ mem)
    rw [forEach_cons, forEach_cons, missed missing]
    rw [ih distinct]
    · exact fun other mem =>
        (new other (List.mem_cons_of_mem r mem)).refresh answers con (apart other mem) newR
    · intro other mem
      have alike := (Local.displayed answers con).other other r c (apart other mem)
      rw [same]
      exact alike.scene.store.record.trans (empty other (List.mem_cons_of_mem r mem))

theorem revalidate_ended {σ : Type} {v : Service σ} (ends : List (Resource × Reload))
    (c : Client σ) : revalidate v (ends.map fun e => (e.1, .ended e.2)) c = c := by
  induction ends with
  | nil => rfl
  | cons e ends ih =>
    rw [List.map_cons, revalidate_cons]
    exact ih

theorem revalidate_map {σ : Type} {v : Service σ} (p : Resource → Progress) (rs : List Resource)
    (c : Client σ) :
    revalidate v (rs.map fun r => (r, p r)) c = (forEach (fun r => await v (p r) r) rs c).2 := by
  induction rs generalizing c with
  | nil => rfl
  | cons r rs ih =>
    rw [List.map_cons, revalidate_cons, forEach_cons, ih]

end

/-! ## Both ways to ask -/

section

variable (answers : Resource → String → Option String → Nat → Outcome Value) (con : String)
  (now : Instant) {policy : Retry.Policy} (hasAnnouncements : Bool) {store : Store}

theorem nodup_resources (c : Convention) : c.resources.Nodup :=
  List.Pairwise.filter _ (show Resource.all.Nodup by decide)

/-- Without a quota each resource is displayed as if it were by itself. -/
theorem display_alike (unlimited : c.store.IsUnlimited) :
    (∀ r ∈ c.convention.resources,
      Alike r (c.display (.answering answers) con now).2
        (displayed (.answering answers) con r c).2) ∧
    ∀ r ∉ c.convention.resources, Alike r (c.display (.answering answers) con now).2 c := by
  have distinct := nodup_resources c.convention
  obtain ⟨results, own, others, kind⟩ :=
    (Local.perform answers (.activate con)).forEach unlimited distinct
  have awaits := Local.await_each answers
    fun r => (c.perform (.answering answers) r (.activate con)).1
  obtain ⟨-, own', others', -⟩ := awaits.forEach (unlimited.congr kind) distinct
  rw [display_eq, results, revalidate_map]
  refine ⟨fun r mem => (own' r mem).trans ?_, fun r out => (others' r out).trans (others r out)⟩
  exact (awaits.own r _ _ (unlimited.congr kind) (own r mem)).2

/-- A con is displayed as it is refreshed, and every reload ends. -/
theorem display_eq_reload (new : ∀ r, c.IsNew policy r)
    (kept : c.store.IsUnlimited ∨ c.store.records = []) :
    (∀ r, Alike r (c.display (.answering answers) con now).2
      (c.reload (.answering answers) con now).2) ∧
    ∃ ends : List (Resource × Reload), ends.map (·.1) = c.convention.resources ∧
      (forEach (refresh (.answering answers) con) c.convention.resources c).1 =
        ends.map fun e => (e.1, .ended e.2) := by
  have distinct := nodup_resources c.convention
  obtain ⟨same, ends, names, results⟩ :=
    forEach_refresh answers con distinct fun r _ => new r
  refine ⟨fun r => ?_, ends, names, results⟩
  rcases kept with unlimited | empty
  · obtain ⟨own, others⟩ := display_alike answers con now unlimited
    obtain ⟨-, own', others', -⟩ := (Local.displayed answers con).forEach unlimited distinct
    rw [reload_eq, same]
    by_cases mem : r ∈ c.convention.resources
    · exact (own r mem).trans (own' r mem).symm
    · exact (others r mem).trans (others' r mem).symm
  · have missed := forEach_activate answers con distinct (fun r _ => new r) fun r _ => by
      rw [Cache.record?, empty]
      rfl
    rw [display_eq, missed, results, revalidate_ended, reload_eq]
    exact .refl r _

/-- The summaries of clients that have come to the same for all resources. -/
theorem summaryText_eq {d e : Client (List Asked)} (alike : ∀ r, Alike r d e)
    (has : d.convention.hasAnnouncements = e.convention.hasAnnouncements) :
    d.summaryText con now = e.summaryText con now := by
  have same : d.convention = e.convention :=
    Convention.ext_get (fun r => (alike r).scene.machine) has
  rw [summaryText, summaryText, same]

/-- The resources of clients that have come to the same have the same records, and no record is of
nobody. -/
theorem find?_eq {start : Stage} {d e : Client (List Asked)} (alike : ∀ r, Alike r d e)
    (reached : Reaches start d) (reached' : Reaches start e) (key : String) :
    d.store.records.find? key = e.store.records.find? key := by
  by_cases own : ∃ r : Resource, key = Cache.recordKey r.name
  · obtain ⟨r, rfl⟩ := own
    exact (alike r).scene.store.record
  · obtain ⟨past, run⟩ := reached
    obtain ⟨past', run'⟩ := reached'
    have other := not_exists.1 own
    exact (run.find?_eq other).trans (run'.find?_eq other).symm

/-- What was opened has no quota, or it is empty. -/
theorem isUnlimited_or_empty {config : CacheConfig} {h h' : Host} {place : Option Place}
    (opened : h.openStore? config = some (place, store, h')) :
    store.IsUnlimited ∨ store.records = [] := by
  unfold Host.openStore? at opened
  split at opened
  · cases opened
    exact .inr rfl
  · split at opened
    · cases opened
      exact .inr rfl
    · unfold Host.openDatabase? at opened
      split at opened
      · cases opened
        exact .inr rfl
      · split at opened
        · cases opened
        · obtain ⟨records, -, same⟩ := Option.map_eq_some_iff.1 opened
          cases same
          exact .inl nofun

/-- **Showing and reloading agree.** Let a client begin over a store that was opened, with retries
that have a delay, and let the server answer at once, by what is asked for and by how many requests
for the resource there have been before. Then to display a con and to reload it sends the same
requests for each resource, leaves the same records and prints the same summary, before which to
reload prints how the reload of each resource ended. In both there has been no retry that was due
at any time. -/
theorem display_and_reload_agree {config : CacheConfig} {h h' : Host} {place : Option Place}
    (opened : h.openStore? config = some (place, store, h'))
    (later : 0 < policy.baseDelay.nanos) :
    let start : Client (List Asked) := ⟨[], store, .new policy hasAnnouncements⟩
    let displayed := start.display (.answering answers) con now
    let reloaded := start.reload (.answering answers) con now
    (∀ r, requestsFor r displayed.2.server = requestsFor r reloaded.2.server) ∧
    (∀ key, displayed.2.store.records.find? key = reloaded.2.store.records.find? key) ∧
    (∃ ends : List (Resource × Reload), ends.map (·.1) = start.convention.resources ∧
      reloaded.1 = reloadText (ends.map fun e => (e.1, .ended e.2)) ++ displayed.1) ∧
    displayed.2.Calmly start.stage ∧ reloaded.2.Calmly start.stage := by
  intro start displayed reloaded
  have new : ∀ r, start.IsNew policy r := by rintro (_ | _ | _ | _) <;> rfl
  obtain ⟨alike, ends, names, results⟩ :=
    display_eq_reload answers con now new (isUnlimited_or_empty opened)
  have alike : ∀ r, Alike r displayed.2 reloaded.2 := alike
  have begins : Reaches start.stage start := ⟨[], .nil⟩
  have reached : Reaches start.stage displayed.2 := begins.display con now
  have reached' : Reaches start.stage reloaded.2 := begins.reload con now
  have text : displayed.1 = displayed.2.summaryText con now := display_text con now start
  have text' : reloaded.1 = reloadText _ ++ reloaded.2.summaryText con now :=
    reload_text con now start
  have has := reached.has.trans reached'.has.symm
  rw [results, ← summaryText_eq con now alike has, ← text] at text'
  clear_value displayed reloaded
  exact ⟨fun r => (alike r).requests, find?_eq alike reached reached', ⟨ends, names, text'⟩,
    reached.calmly later, reached'.calmly later⟩

/-- The memory has room for one record only: the two ways agree, make four requests and keep the
events. -/
theorem quota_keeps_events :
    let h : Host := { disk := {}, environment := { cwd := [], home := "/" } }
    let answers : Resource → String → Option String → Nat → Outcome Value := fun _ _ _ _ =>
      .success (.array []) (some "v1") false
    let start : Client (List Asked) := ⟨[], { kind := .memory (some 70) }, .new .standard true⟩
    let displayed := start.display (.answering answers) "a" ⟨0, 0⟩
    let reloaded := start.reload (.answering answers) "a" ⟨0, 0⟩
    h.openStore? { backend := .memory, quotaBytes := some 70 } =
        some (none, { kind := .memory (some 70) }, h) ∧
      (∀ r, requestsFor r displayed.2.server = requestsFor r reloaded.2.server) ∧
      displayed.2.server.length = 4 ∧
      reloaded.2.store.records = [(Cache.recordKey Resource.events.name,
        "\x7b\"instance\":\"a\",\"etag\":\"v1\",\"value\":[]\x7d")] := by
  intro h answers
  have opened : h.openStore? { backend := .memory, quotaBytes := some 70 } =
      some (none, { kind := .memory (some 70) }, h) := rfl
  have later : 0 < Retry.Policy.standard.baseDelay.nanos := by decide
  obtain ⟨same, -⟩ := display_and_reload_agree answers "a" ⟨0, 0⟩ true opened later
  exact ⟨opened, same, by decide +kernel, by decide +kernel⟩

end

end Client

end OfflineSchedule
