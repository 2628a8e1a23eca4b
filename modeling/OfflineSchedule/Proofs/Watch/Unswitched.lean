import OfflineSchedule.Proofs.Convention.Summary
import OfflineSchedule.Proofs.Turns.News
import OfflineSchedule.Proofs.Watch.Lines
import OfflineSchedule.Proofs.Watch.Run
/-!
# Sessions that do not switch their con

A session prints a summary whenever it takes a change, and when the user asks for one. In between
resources publish states, each of which is noted as news, sent on as a change, and taken at last,
all at any time. So readers see of each resource what the summary printed last has shown of it,
unless that is news or a change waits (`Displays.tracks`). The session of the program goes on in
these ways as long as nobody switches its con (`Unswitched.calm`).
-/

namespace OfflineSchedule

open Time (Instant)
open Turns (World)

namespace Watch

open Inbox (isChange)
open Sync (Move)
open Turns (Server)
open Turns.World (Closed IsOnly Recalls closed_recalls)

variable {ν : Type} {s s' : Session} {last : Option Summary} {con : String}

/-! ## Runs -/

/-- Whether a summary is printed when the notice is taken. -/
def Notice.summarizes (n : Notice ν) : Bool :=
  match n with
  | .changed _ => true
  | .line text =>
    match Action.ofLine text with
    | .ok .status => true
    | _ => false
  | .closed => false

/-- The con that is selected when the notice is taken. -/
def Notice.selected? (n : Notice ν) : Option String :=
  match n with
  | .line text =>
    match Action.ofLine text with
    | .ok (.use con) => some con
    | _ => none
  | _ => none

/-- No other con is selected when the notice is taken. -/
def Notice.StaysAt (con : String) (n : Notice ν) : Prop := ∀ c, n.selected? = some c → c = con

namespace Session

/-- Nothing that concerns summaries happens: tasks come and go, and other things are printed. -/
structure Quiet (s s' : Session) : Prop where
  world : World.Quiet (fun _ => True) s.world s'.world := by exact {}
  con : s'.con = s.con := by rfl
  relay : s'.relay = s.relay := by rfl
  inbox : s'.inbox = s.inbox := by rfl

/-- Lets a resource make a move. -/
def move (r : Resource) (m : Move) (s : Session) : Session :=
  { s with world := (s.world.make 0 r m).2 }

/-- Sends on which of some resources have published a state. -/
def relayWhere (p : Resource → Bool) (s : Session) : Session :=
  let relay := (s.world.news.filter p).foldl (fun relay r => relay.publish r) s.relay
  let (relay, inbox) := relay.flush s.inbox
  { s with world := { s.world with news := s.world.news.filter (!p ·) }, relay, inbox }

theorem relayWhere_true (s : Session) : s.relayWhere (fun _ => true) = s.relayNews := by
  simp [relayWhere, relayNews]

end Session

/-- The ways in which a session can go on that does not switch its con: the summary that was printed
last, if any, and the session. -/
inductive Displays (start : Session) : Option Summary → Session → Prop where
  | nil : Displays start none start
  | rest {last : Option Summary} {s s' : Session} (run : Displays start last s)
      (quiet : s.Quiet s') : Displays start last s'
  /-- A resource makes a move that activates no other con. -/
  | move {last : Option Summary} {s : Session} (run : Displays start last s) (r : Resource)
      {m : Move} (within : m.IsWithin (· = s.con)) : Displays start last (s.move r m)
  | send {last : Option Summary} {s : Session} (run : Displays start last s)
      (notices : List (Notice Resource)) : Displays start last (s.send notices)
  /-- For some resources it is sent on that they have published a state. -/
  | relay {last : Option Summary} {s : Session} (run : Displays start last s)
      (p : Resource → Bool) : Displays start last (s.relayWhere p)
  /-- The loop takes a notice and reacts to it. -/
  | take {last : Option Summary} {s : Session} {n : Notice Resource} {inbox : Inbox Resource}
      (run : Displays start last s) (now : Instant) (running : s.isRunning = true)
      (free : s.isWaiting = false) (next : s.inbox.next = some (n, inbox))
      (stays : n.StaysAt s.con) :
      Displays start
        (if n.summarizes then some (s.convention.summary s.con now) else last)
        ({ s with inbox }.react now n)

/-! ### Reactions -/

namespace Session

/-- A reaction that is said to print a summary prints it, and does nothing else but announce it. -/
theorem react_of_summarizes (now : Instant) {n : Notice Resource} (summarizes : n.summarizes = true)
    (s : Session) : ∃ before,
      s.react now n = s.print (before ++ (s.convention.summary s.con now).text) := by
  cases n with
  | changed rs =>
    refine ⟨"-- updated: " ++ ", ".intercalate (rs.map Resource.name) ++ "\n", ?_⟩
    simp [react, printSummary, print, convention, String.append_assoc]
  | closed => cases summarizes
  | line text =>
    refine ⟨"", ?_⟩
    unfold Notice.summarizes at summarizes
    dsimp only at summarizes
    split at summarizes
    · rename_i status
      simp [react, status, perform, printSummary]
    · cases summarizes

/-- A reaction leaves the relay alone, and the con unless the notice selects another one. -/
theorem relay_react (now : Instant) (n : Notice Resource) (s : Session) :
    (s.react now n).relay = s.relay := by
  cases n with
  | line text =>
    unfold react
    dsimp only
    split
    · rename_i a _
      cases a <;> rfl
    · rfl
    · rfl
  | _ => rfl

theorem con_react (now : Instant) (n : Notice Resource) (s : Session) :
    (s.react now n).con = n.selected?.getD s.con := by
  cases n with
  | line text =>
    unfold react Notice.selected?
    dsimp only
    cases Action.ofLine text with
    | error e => cases e <;> rfl
    | ok a => cases a <;> rfl
  | _ => rfl

variable {cons : String → Prop} {P : World → Prop}

theorem closed_actEach (closed : Closed (fun _ => True) cons P) {m : Move}
    (inactive : m.activated? = none) (hw : P s.world) : P (s.actEach m).world :=
  List.foldlRecOn _ _ hw fun _ hw r _ => closed.act_inactive _ r inactive hw

theorem closed_stop (closed : Closed (fun _ => True) cons P) (hw : P s.world) :
    P s.stop.world := by
  have abandoned : P (s.world.abandon follower) := closed.abandon trivial hw
  unfold stop
  dsimp only
  exact closed_actEach closed rfl abandoned

theorem closed_startReload (closed : Closed (fun _ => True) cons P) (hw : P s.world) :
    P s.startReload.world := by
  show P (s.world.spawn .main _)
  exact closed.spawn trivial _ hw

theorem closed_clear (closed : Closed (fun _ => True) cons P) (hw : P s.world) :
    P s.clear.world := by
  unfold clear print
  dsimp only
  exact closed_actEach closed rfl hw

theorem con_react_of_stays (now : Instant) {n : Notice Resource}
    (stays : n.StaysAt s.con) : (s.react now n).con = s.con := by
  rw [con_react]
  cases selected : n.selected? with
  | none => rfl
  | some con => exact stays con selected

/-- What a reaction that does not switch the con does to the world is moves and housekeeping. -/
theorem closed_react (closed : Closed (fun _ => True) cons P)
    (selection : s.world.selection? = some s.con) (now : Instant) {n : Notice Resource}
    (stays : n.StaysAt s.con) (hw : P s.world) :
    P (s.react now n).world := by
  have performed : ∀ a, (∀ con, a = .use con → con = s.con) → P (s.perform now a).world := by
    intro a stays
    unfold perform
    cases a with
    | use con' =>
      cases stays con' rfl
      have put : P (s.world.setChannel 0 { con := s.con }) :=
        closed.quiet (.setChannel selection) hw
      exact closed.wake follower put
    | reload => exact closed_startReload closed hw
    | clear => exact closed_clear closed hw
    | quit => exact closed_stop closed hw
    | status => exact hw
    | help => exact hw
  unfold react
  cases n with
  | changed rs => exact hw
  | closed => exact closed_stop closed hw
  | line text =>
    unfold Notice.StaysAt Notice.selected? at stays
    dsimp only at stays ⊢
    split
    · rename_i a parsed
      rw [parsed] at stays
      refine performed a fun con same => stays con ?_
      rw [same]
    · exact hw
    · exact hw

end Session

/-! ### What is on the way -/

theorem Inbox.waiting_sendAll (ns : List (Notice ν)) (b : Inbox ν) :
    (ns.foldl (fun b n => b.send n) b).waiting = b.waiting ++ ns := by
  induction ns generalizing b with
  | nil => exact (List.append_nil _).symm
  | cons n ns ih => simp [ih, waiting_send]

/-- What is taken has waited in front of the rest, unless it is a change. -/
theorem Inbox.waiting_of_next [DecidableEq ν] {b b' : Inbox ν} {n : Notice ν}
    (next : b.next = some (n, b')) :
    isChange n = false ∧ b.waiting = n :: b'.waiting ∨
      isChange n = true ∧ b'.waiting ⊆ b.waiting := by
  obtain ⟨pending, queue⟩ := b
  have rest : ∀ pending queue : List (Notice ν),
      (pending ++ queue.filter (!isChange ·)) ++ [] ⊆ pending ++ queue := by
    intro pending queue m mem
    rw [List.append_nil] at mem
    exact (List.mem_append.1 mem).elim (List.mem_append_left _) fun mem =>
      List.mem_append_right _ (List.mem_filter.1 mem).1
  cases pending with
  | cons m pending =>
    cases m with
    | changed names =>
      cases next
      exact .inr ⟨rfl, fun _ mem => List.mem_cons_of_mem _ (rest pending queue mem)⟩
    | _ =>
      cases next
      exact .inl ⟨rfl, rfl⟩
  | nil =>
    cases queue with
    | nil => cases next
    | cons m queue =>
      cases m with
      | changed names =>
        cases next
        exact .inr ⟨rfl, fun _ mem => List.mem_cons_of_mem _ (rest [] queue mem)⟩
      | _ =>
        cases next
        exact .inl ⟨rfl, rfl⟩

section

variable [DecidableEq ν] {name : ν} {c : Channel ν}

theorem Relay.channel?_publish (r : Relay ν) (name name' : ν) :
    (r.publish name).channel? name' = r.channel? name' := by
  unfold publish
  split
  · split <;> rfl
  · rfl

theorem Relay.unseen_subset_publish (r : Relay ν) (name : ν) :
    r.unseen ⊆ (r.publish name).unseen := by
  unfold publish
  split
  · split
    · exact List.Subset.refl _
    · exact List.subset_append_left ..
  · exact List.Subset.refl _

theorem Relay.mem_unseen_publish {r : Relay ν} (known : r.channel? name = some c) :
    c ∈ (r.publish name).unseen := by
  unfold publish
  rw [known]
  dsimp only
  split
  · assumption
  · exact List.mem_append_right _ (List.mem_singleton.2 rfl)

/-- Whatever is published on an open channel is unseen. -/
theorem Relay.mem_unseen_publishAll {names : List ν} (mem : name ∈ names) {r : Relay ν}
    (known : r.channel? name = some c) :
    c ∈ (names.foldl (fun r name => r.publish name) r).unseen := by
  have stays : ∀ (names : List ν) (r : Relay ν), c ∈ r.unseen →
      c ∈ (names.foldl (fun r name => r.publish name) r).unseen := fun _ _ mem =>
    List.foldlRecOn (motive := fun r : Relay ν => c ∈ r.unseen) _ _ mem
      fun r mem name _ => r.unseen_subset_publish name mem
  induction names generalizing r with
  | nil => cases mem
  | cons first names ih =>
    rcases List.mem_cons.1 mem with rfl | mem
    · exact stays names _ (mem_unseen_publish known)
    · exact ih mem ((r.channel?_publish first name).trans known)

end

theorem Session.waiting_relayWhere (p : Resource → Bool) (s : Session) :
    (s.relayWhere p).inbox.waiting = s.inbox.waiting ++
      (((s.world.news.filter p).foldl (fun relay r => relay.publish r) s.relay).unseen.map
        fun c => .changed [c.name]) := by
  rw [← Inbox.waiting_sendAll, List.foldl_map]
  rfl

/-! ### The invariant -/

/-- Readers see what was printed last unless that is news, or a change waits, after which a summary
is going to be printed. -/
structure Session.Tracks (last : Option Summary) (s : Session) : Prop where
  only : s.world.IsOnly s.con
  opened : ∀ r, (s.world.convention 0).has r = true → ∃ c, s.relay.channel? r = some c
  shown : ∀ x, last = some x → (∃ n ∈ s.inbox.waiting, isChange n = true) ∨
    ∃ c : Convention, x = c.summary s.con x.now ∧ s.world.Recalls c

namespace Session.Tracks

/-- Neither the relay nor the changes that wait are concerned. -/
theorem step (h : s.Tracks last) (con : s'.con = s.con) (relay : s'.relay = s.relay)
    (waiting : ∀ n ∈ s.inbox.waiting, isChange n = true → n ∈ s'.inbox.waiting)
    (world : ∀ c, s.world.IsOnly s.con ∧ s.world.Recalls c →
      s'.world.IsOnly s.con ∧ s'.world.Recalls c) : s'.Tracks last := by
  obtain ⟨only, recalls⟩ := world _ ⟨h.only, .refl s.world⟩
  refine ⟨?_, fun r has => ?_, fun x printed => ?_⟩
  · rwa [con]
  · rw [relay]
    exact h.opened r ((recalls.has r).symm.trans has)
  · rcases h.shown x printed with ⟨n, mem, change⟩ | ⟨c, same, recalls⟩
    · exact .inl ⟨n, waiting n mem change, change⟩
    · rw [con]
      exact .inr ⟨c, same, (world c ⟨h.only, recalls⟩).2⟩

theorem rest (h : s.Tracks last) (quiet : s.Quiet s') : s'.Tracks last := by
  refine h.step quiet.con quiet.relay (fun n mem _ => ?_) fun c hw => ?_
  · rwa [quiet.inbox]
  · exact (closed_recalls s.con c).quiet quiet.world hw

theorem move (h : s.Tracks last) (r : Resource) {m : Move} (within : m.IsWithin (· = s.con)) :
    (s.move r m).Tracks last :=
  h.step rfl rfl (fun _ mem _ => mem) fun c hw => (closed_recalls s.con c).make 0 r within hw

theorem send (h : s.Tracks last) (notices : List (Notice Resource)) :
    (s.send notices).Tracks last := by
  refine h.step rfl rfl (fun n mem _ => ?_) fun _ hw => hw
  rw [Session.send, Inbox.waiting_sendAll]
  exact List.mem_append_left _ mem

/-- A resource that is no longer news is announced by a change. -/
theorem relay (h : s.Tracks last) (p : Resource → Bool) : (s.relayWhere p).Tracks last := by
  have channels : ∀ r, (s.relayWhere p).relay.channel? r = s.relay.channel? r := by
    intro r
    exact List.foldlRecOn (motive := fun relay : Relay Resource =>
      relay.channel? r = s.relay.channel? r) _ _ rfl
      fun relay same r' _ => (relay.channel?_publish r' r).trans same
  refine ⟨⟨h.only.one, h.only.selection, h.only.channels, h.only.resources⟩, fun r has => ?_,
    fun x printed => ?_⟩
  · rw [channels]
    exact h.opened r has
  · rw [waiting_relayWhere]
    rcases h.shown x printed with ⟨n, mem, change⟩ | ⟨c, same, recalls⟩
    · exact .inl ⟨n, List.mem_append_left _ mem, change⟩
    · by_cases relayed : ∃ r, c.has r = true ∧ r ∈ s.world.news.filter p
      · obtain ⟨r, has, mem⟩ := relayed
        obtain ⟨channel, known⟩ := h.opened r ((recalls.has r).trans has)
        have unseen := Relay.mem_unseen_publishAll mem known
        exact .inl ⟨_, List.mem_append_right _ (List.mem_map_of_mem unseen), rfl⟩
      · refine .inr ⟨c, same, recalls.has, fun r has => ?_⟩
        refine (recalls.seen r has).imp_left fun news => List.mem_filter.2 ⟨news, ?_⟩
        cases chosen : p r with
        | false => rfl
        | true => exact absurd ⟨r, has, List.mem_filter.2 ⟨news, chosen⟩⟩ relayed

/-- A notice is taken: either a summary is printed, or it was no change. -/
theorem take (h : s.Tracks last) {n : Notice Resource} {inbox : Inbox Resource} (now : Instant)
    (next : s.inbox.next = some (n, inbox))
    (stays : n.StaysAt s.con) :
    Session.Tracks (if n.summarizes then some (s.convention.summary s.con now) else last)
      (({ s with inbox } : Session).react now n) := by
  have con : (({ s with inbox } : Session).react now n).con = s.con := con_react_of_stays now stays
  have relay : (({ s with inbox } : Session).react now n).relay = s.relay := relay_react ..
  cases summarizes : n.summarizes with
  | true =>
    have world : (({ s with inbox } : Session).react now n).world = s.world := by
      obtain ⟨before, react⟩ := react_of_summarizes now summarizes { s with inbox }
      rw [react]
      rfl
    refine ⟨?_, fun r has => ?_, fun x printed => .inr ⟨s.world.convention 0, ?_, ?_⟩⟩
    · rw [world, con]
      exact h.only
    · rw [relay]
      rw [world] at has
      exact h.opened r has
    · cases printed
      rw [con, Session.convention, Turns.World.current_eq_zero h.only.one]
      rfl
    · rw [world]
      exact .refl s.world
  | false =>
    have input : isChange n = false := by
      cases n with
      | changed => cases summarizes
      | _ => rfl
    refine h.step con relay (fun m mem change => ?_) fun c hw => ?_
    · obtain ⟨-, waiting⟩ := (Inbox.waiting_of_next next).resolve_right fun ⟨isChange, _⟩ => by
        simp [input] at isChange
      rw [inbox_react]
      rw [waiting] at mem
      rcases List.mem_cons.1 mem with rfl | mem
      · rw [input] at change
        cases change
      · exact mem
    · exact closed_react (s := { s with inbox }) (closed_recalls s.con c) h.only.selection now stays
        hw

end Session.Tracks

section Beginning

variable (policy : Retry.Policy) (hasAnnouncements : Bool) (store : Store) (server : Server)
  (con : String)

theorem isOnly_worldBefore :
    (worldBefore policy hasAnnouncements store server con).IsOnly con where
  one := rfl
  selection := by
    rw [World.selection?, channel?_worldBefore]
    rfl
  channels number c channel := by
    by_cases first : number = 0
    · subst first
      rw [channel?_worldBefore] at channel
      cases channel
      rfl
    · have none : (worldBefore policy hasAnnouncements store server con).channel? number = none :=
        World.channel?_setChannel_of_ne first { con } _
      rw [none] at channel
      cases channel
  resources r := by
    have sessions : (worldBefore policy hasAnnouncements store server con).convention 0 =
        .new policy hasAnnouncements := rfl
    rw [sessions]
    cases r <;> exact .of_new policy

theorem isOnly_start :
    (Session.start policy hasAnnouncements store server con).world.IsOnly con := by
  let before := worldBefore policy hasAnnouncements store server con
  have put : World.Quiet (fun _ => True) before (before.setTask (.follower 0) { session := 0 }) :=
    .setTask trivial _ before
  have woken : World.Quiet (fun _ => True) (before.setTask (.follower 0) { session := 0 })
      (before.spawn (.follower 0) { session := 0 }) := .wake (.follower 0) _
  exact ((isOnly_worldBefore ..).quiet put).quiet woken

/-- Each resource that the con has gets a channel. -/
theorem opened_start {r : Resource}
    (has : (Convention.new policy hasAnnouncements).has r = true) :
    ∃ c, (Session.start policy hasAnnouncements store server con).relay.channel? r = some c := by
  cases hasAnnouncements <;> cases r <;> first | exact ⟨_, rfl⟩ | cases has

theorem tracks_start :
    (Session.start policy hasAnnouncements store server con).Tracks none := by
  refine ⟨isOnly_start .., fun r has => ?_, fun x printed => ?_⟩
  · rw [World.convention, (begins_start ..).sessions] at has
    exact opened_start policy hasAnnouncements store server con has
  · cases printed

end Beginning

theorem Displays.tracks {start : Session} (begins : start.Tracks none)
    (run : Displays start last s) : s.Tracks last := by
  induction run with
  | nil => exact begins
  | rest _ quiet ih => exact ih.rest quiet
  | move _ r within ih => exact ih.move r within
  | send _ notices ih => exact ih.send notices
  | relay _ p ih => exact ih.relay p
  | take _ now _ _ next stays ih => exact ih.take now next stays

/-! ## Sessions of the program -/

/-- A session that begins. -/
structure Session.Begins (start : Session) : Prop where
  regular : start.IsRegular
  tracks : start.Tracks none

theorem Session.begins_start (policy : Retry.Policy) (hasAnnouncements : Bool) (store : Store)
    (server : Server) (con : String) :
    (Session.start policy hasAnnouncements store server con).Begins :=
  ⟨isRegular_start .., tracks_start ..⟩

/-- The session is what some run has led to, and what was typed selects no other con. -/
structure Unswitched (start s : Session) : Prop where
  reached : Reached start s
  displays : ∃ last, Displays start last s
  stays : ∀ n ∈ s.inbox.waiting, n.StaysAt s.con

namespace Unswitched

variable {start : Session}

theorem closed_displays (begins : start.Begins) (last : Option Summary) (s : Session) :
    Closed (fun _ => True) (· = s.con) fun w => Displays start last { s with world := w } where
  timers _ _ _ := trivial
  revalidations _ _ _ := trivial
  quiet quiet run := run.rest { world := quiet }
  make := by
    intro w session r m within run
    by_cases first : session = 0
    · subst first
      exact run.move r within
    · have one := (run.tracks begins.tracks).only.one
      exact run.rest { world := World.quiet_make one first r m }
  channels run channel := (run.tracks begins.tracks).only.channels _ _ channel

/-! ### Tasks -/

section

variable (begins : start.Begins)
include begins

/-- A task that was woken has its turn. -/
theorem turn (h : Unswitched start s) {id : Turns.TaskId} (woken : id ∈ s.world.queue) :
    Unswitched start
      { s with world := World.turn id { s.world with queue := s.world.queue.erase id } } := by
  obtain ⟨last, run⟩ := h.displays
  refine ⟨h.reached.turn begins.regular woken, ⟨last, ?_⟩, h.stays⟩
  have taken : World.Quiet (fun _ => True) s.world
      { s.world with queue := s.world.queue.erase id } := {}
  have closed := closed_displays begins last s
  refine closed.turn trivial (fun t known => ?_) (closed.quiet taken run)
  have known : s.world.task? id = some t := known
  exact ((h.reached.regular begins.regular).world.task known).beginsWithin _

/-- Time passes. -/
theorem tick (h : Unswitched start s) {w : World} (ticked : s.world.tick? = some w) :
    Unswitched start { s with world := w } := by
  obtain ⟨last, run⟩ := h.displays
  have closed := closed_displays begins last s
  exact ⟨h.reached.tick begins.regular ticked, ⟨last, closed.tick? run ticked⟩, h.stays⟩

theorem settleTasks (fuel : Nat) (h : Unswitched start s) :
    Unswitched start { s with world := s.world.settle fuel } := by
  induction fuel generalizing s with
  | zero => exact h
  | succ fuel ih =>
    unfold World.settle
    split
    · exact h
    · rename_i id queue woken
      have turned := h.turn begins (show id ∈ s.world.queue by simp [woken])
      rw [woken, List.erase_cons_head] at turned
      exact ih turned

/-! ### The loop -/

/-- The loop goes on with the reload that it waits for. -/
theorem goOn (h : Unswitched start s) (running : s.isRunning = true)
    (waiting : s.isWaiting = true) : Unswitched start s.continueReload := by
  obtain ⟨last, run⟩ := h.displays
  have closed := closed_displays begins last s
  have woken : World.Quiet (fun _ => True) s.world { s.world with isMainWoken := false } := {}
  have turned : Displays start last
      { s with world := World.turn .main { s.world with isMainWoken := false } } :=
    closed.turn trivial (fun t known => ?_) (closed.quiet woken run)
  · have reached := h.reached.change begins.regular (.goOn running waiting)
    unfold Session.continueReload at reached ⊢
    dsimp only at reached ⊢
    split at reached
    · exact ⟨reached, ⟨last, turned⟩, h.stays⟩
    · exact ⟨reached, ⟨last, turned.rest {}⟩, h.stays⟩
  · have known : s.world.task? .main = some t := known
    exact ((h.reached.regular begins.regular).world.task known).beginsWithin _

end

theorem relayNews (begins : start.Begins) (h : Unswitched start s) :
    Unswitched start s.relayNews := by
  obtain ⟨last, run⟩ := h.displays
  have relayed := run.relay fun _ => true
  have waiting := s.waiting_relayWhere fun _ => true
  rw [Session.relayWhere_true] at relayed waiting
  refine ⟨h.reached.change begins.regular .relay, ⟨last, relayed⟩, fun n mem con selected => ?_⟩
  rw [waiting] at mem
  rcases List.mem_append.1 mem with mem | mem
  · exact h.stays n mem con selected
  · obtain ⟨c, -, rfl⟩ := List.mem_map.1 mem
    cases selected

theorem settle (begins : start.Begins) (h : Unswitched start s) : Unswitched start s.settle :=
  (h.settleTasks begins _).relayNews begins

/-- The loop takes a notice and reacts to it. -/
theorem take (begins : start.Begins) (h : Unswitched start s) {n : Notice Resource}
    {inbox : Inbox Resource} (now : Instant) (running : s.isRunning = true)
    (free : s.isWaiting = false) (next : s.inbox.next = some (n, inbox)) :
    Unswitched start (({ s with inbox } : Session).react now n) := by
  obtain ⟨last, run⟩ := h.displays
  obtain ⟨stays, rest⟩ : n.StaysAt s.con ∧ inbox.waiting ⊆ s.inbox.waiting := by
    rcases Inbox.waiting_of_next next with ⟨-, waiting⟩ | ⟨change, rest⟩
    · rw [waiting]
      refine ⟨h.stays n ?_, List.subset_cons_self ..⟩
      rw [waiting]
      exact List.mem_cons_self
    · refine ⟨fun con selected => ?_, rest⟩
      cases n with
      | changed => cases selected
      | _ => cases change
  refine ⟨h.reached.change begins.regular (.react now running free next),
    ⟨_, run.take now running free next stays⟩, fun m mem con selected => ?_⟩
  rw [Session.inbox_react] at mem
  rw [Session.con_react_of_stays (s := { s with inbox }) now stays]
  exact h.stays m (rest mem) con selected

theorem loop (begins : start.Begins) (now : Instant) (fuel : Nat) (h : Unswitched start s) :
    Unswitched start (s.loop now fuel) := by
  induction fuel generalizing s with
  | zero => exact h
  | succ fuel ih =>
    unfold Session.loop
    split
    · exact h
    · rename_i running
      have running : s.isRunning = true := by simpa using running
      split
      · rename_i waiting
        split
        · exact ih (h.goOn begins running waiting)
        · exact h
      · rename_i free
        split
        · exact h
        · rename_i n inbox next
          exact ih (h.take begins now running (by simpa using free) next)

/-- What the program comes to, however it goes on, is what a run comes to. -/
theorem calm (begins : start.Begins) (now : Instant) (fuel : Nat) (h : Unswitched start s) :
    Unswitched start (s.calm now fuel) := by
  induction fuel generalizing s with
  | zero => exact h
  | succ fuel ih =>
    have settled := h.settle begins
    unfold Session.calm
    dsimp only
    split
    · exact ih (settled.loop begins now _)
    · exact settled

/-! ### What happens from outside -/

theorem nil (start : Session) (stays : start.inbox.waiting = []) : Unswitched start start := by
  refine ⟨⟨[], {}, rfl, .nil⟩, ⟨none, .nil⟩, fun n mem => ?_⟩
  rw [stays] at mem
  cases mem

/-- Notices arrive that select no other con. -/
theorem send (h : Unswitched start s) {s' : Session} {notices : List (Notice Resource)}
    (reached : Reached start (s'.send notices)) (quiet : s.Quiet s')
    (stays : ∀ n ∈ notices, n.StaysAt s.con) :
    Unswitched start (s'.send notices) := by
  obtain ⟨last, run⟩ := h.displays
  refine ⟨reached, ⟨last, (run.rest quiet).send notices⟩, fun n mem con selected => ?_⟩
  rw [Session.send, Inbox.waiting_sendAll, quiet.inbox] at mem
  show con = s'.con
  rw [quiet.con]
  exact (List.mem_append.1 mem).elim (fun mem => h.stays n mem con selected)
    fun mem => stays n mem con selected

theorem type (begins : start.Begins) (h : Unswitched start s) (bytes : List UInt8)
    (stays : ∀ n : Notice Resource, n ∈ (s.typed.feed bytes).1 → n.StaysAt s.con) :
    Unswitched start (s.type bytes) :=
  h.send (h.reached.change begins.regular (.type bytes)) {} stays

theorem close (begins : start.Begins) (h : Unswitched start s)
    (stays : ∀ n : Notice Resource, n ∈ s.typed.close.1 → n.StaysAt s.con) :
    Unswitched start s.close :=
  h.send (h.reached.change begins.regular .close) {} stays

end Unswitched

end Watch

end OfflineSchedule
