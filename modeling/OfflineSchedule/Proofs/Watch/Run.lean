import OfflineSchedule.Proofs.Turns.Turn
import OfflineSchedule.Watch.Session
/-!
# Runs of a session

The loop of a session and its tasks take steps in any order. What tasks do is left open but for
what a run of a world leaves open: a resource may make any move at any time, which covers whatever
the server answers and however long that takes. The session of the program is one of these runs
(`Reached.calm`). In all of them the con on the channel is the con of the header
(`Run.regular`), and what has been done is a run of the world (`Run.world`).
-/

namespace OfflineSchedule.Watch

open Convention (Deed)
open Http (Response)
open Sync (Move)
open Time (Instant)
open Turns (Following Server Task TaskId World)
open Turns.World (Ends Keeps)

variable {s s' s'' : Session} {f f' : Following} {past deeds : List Deed}

/-! ## Changes -/

/-- What the loop does, and what happens from outside. -/
inductive Change : Session → Session → Prop where
  /-- The loop takes a notice and reacts to it. -/
  | react {s : Session} {n : Notice Resource} {inbox : Inbox Resource} (now : Instant)
      (running : s.isRunning = true) (free : s.isWaiting = false)
      (next : s.inbox.next = some (n, inbox)) : Change s ({ s with inbox }.react now n)
  /-- The loop goes on with the reload that it waits for. -/
  | goOn {s : Session} (running : s.isRunning = true) (waiting : s.isWaiting = true) :
      Change s s.continueReload
  /-- It is sent on which resources have published a state. -/
  | relay {s : Session} : Change s s.relayNews
  /-- Notices arrive, such as that one resource has published a state. -/
  | send {s : Session} (notices : List (Notice Resource)) : Change s (s.send notices)
  | type {s : Session} (bytes : List UInt8) : Change s (s.type bytes)
  | close {s : Session} : Change s s.close
  /-- The server is going to answer otherwise. -/
  | serve {s : Session} (server : Server) :
      Change s { s with world := { s.world with server } }
  /-- The server answers a request that it has kept. -/
  | respond {s s' : Session} {path : String} {response : Option Response}
      (responded : s.respond? path response = some s') : Change s s'

/-- A session that runs regularly, and the con on the channel is that of the header. -/
structure Session.IsRegular (s : Session) : Prop where
  world : s.world.IsRegular
  selection : s.world.selection? = some s.con

namespace Session

/-- The tasks take steps in which the follower has no part, and the con of the header stays. -/
structure Steady (s s' : Session) : Prop where
  world : Keeps s.world s'.world
  con : s'.con = s.con

namespace Steady

/-- Neither the tasks nor the header are concerned. -/
theorem of_eq (world : s'.world = s.world) (con : s'.con = s.con) : Steady s s' := by
  refine ⟨?_, con⟩
  rw [world]
  exact .refl

theorem trans (h : Steady s s') (h' : Steady s' s'') : Steady s s'' :=
  ⟨h.world.trans h'.world, h'.con.trans h.con⟩

theorem stop (h : Steady s s') : Steady s { s' with isRunning := false } :=
  h.trans (.of_eq rfl rfl)

theorem print (h : Steady s s') (text : String) : Steady s (s'.print text) :=
  h.trans (.of_eq rfl rfl)

theorem isRegular (h : Steady s s') (regular : s.IsRegular) : s'.IsRegular := by
  obtain ⟨world, channels, -⟩ := h.world regular.world
  refine ⟨world, ?_⟩
  rw [World.selection?_congr channels, regular.selection, h.con]

end Steady

theorem steady_actEach {m : Move} (inactive : m.activated? = none) (s : Session) :
    Steady s (s.actEach m) := by
  refine ⟨.foldl fun w r => .of_regular fun h => ?_, rfl⟩
  have first : w.current = 0 := by rw [World.current, h.one]
  rw [first]
  exact .act r inactive

theorem steady_startReload (s : Session) : Steady s s.startReload := by
  refine ⟨.of_regular fun h => ?_, rfl⟩
  have main : TaskId.IsFirst .main := trivial
  have first : s.world.current = 0 := by rw [World.current, h.one]
  rw [startReload, first]
  refine .spawn main ⟨rfl, fun r m fresh => ?_⟩
  rw [Task.strand?_strands] at fresh
  obtain ⟨-, same⟩ := Option.ite_none_right_eq_some.1 fresh
  cases same
  rfl

theorem steady_stop (s : Session) : Steady s s.stop := by
  have abandoned : Steady s { s with world := s.world.abandon follower } :=
    ⟨World.keeps_abandon follower s.world, rfl⟩
  exact (abandoned.trans (steady_actEach (m := .shutdown) rfl _)).stop

theorem steady_continueReload (s : Session) : Steady s s.continueReload := by
  have taken : Keeps s.world { s.world with isMainWoken := false } :=
    .within {}
  have turned := taken.trans (World.keeps_turn_main _)
  unfold continueReload
  dsimp only
  split
  · exact ⟨turned, rfl⟩
  · have noted : ∀ w : World,
        Keeps w { w with results := w.results.filter (·.1 ≠ TaskId.main) } := fun _ => .within {}
    exact ⟨turned.trans (noted _), rfl⟩

theorem steady_relayNews (s : Session) : Steady s s.relayNews :=
  ⟨.within {}, rfl⟩

theorem steady_respond? {path : String} {response : Option Response}
    (responded : s.respond? path response = some s') : Steady s s' := by
  unfold respond? at responded
  split at responded
  · cases responded
  · split at responded
    · cases responded
    · rename_i id r ticket _
      split at responded
      · cases responded
      · rename_i t known
        cases responded
        refine ⟨.of_regular fun h => ?_, rfl⟩
        have answered : ∀ kept, Keeps s.world { s.world with kept } := fun _ => .within {}
        have passive := (h.task known).setStrand r (s := .waiting ticket
          (some (s.world.now, Http.outcome (Http.request none response)))) nofun
        exact (answered _).trans (.spawn (h.first known) passive)

/-- The user selects a con: it is put on the channel, and the header names it. -/
theorem use_spec (h : s.IsRegular) (con : String) (f : Following) :
    (s.use con).IsRegular ∧ ∃ deeds, Turns.Run (s.world, f) deeds ((s.use con).world, f) := by
  have put : (s.world.setChannel 0 { con }).IsRegular :=
    ⟨h.world.one, h.world.tasks, h.world.queue, h.world.alarms⟩
  have first : TaskId.IsFirst follower := rfl
  have selection : (s.world.setChannel 0 { con }).selection? = some con := by
    rw [World.selection?, World.channel?_setChannel]
    rfl
  obtain ⟨regular, channels, run⟩ := Keeps.wake first put
  obtain ⟨past, run⟩ := run f
  exact ⟨⟨regular, (World.selection?_congr channels).trans selection⟩, _,
    (Turns.Run.single (.use con)).trans run⟩

theorem steady_or_use_of_perform (now : Instant) (a : Action) (s : Session) :
    Steady s (s.perform now a) ∨ ∃ con, s.perform now a = s.use con := by
  cases a with
  | use con => exact .inr ⟨con, rfl⟩
  | reload => exact .inl (steady_startReload s)
  | clear => exact .inl ((steady_actEach (m := .clear) rfl s).print _)
  | status => exact .inl (.of_eq rfl rfl)
  | help => exact .inl (.of_eq rfl rfl)
  | quit => exact .inl (steady_stop s)

theorem steady_or_use_of_react (now : Instant) (n : Notice Resource) (s : Session) :
    Steady s (s.react now n) ∨ ∃ con, s.react now n = s.use con := by
  cases n with
  | changed rs => exact .inl (.of_eq rfl rfl)
  | line text =>
    unfold react
    dsimp only
    split
    · exact steady_or_use_of_perform now _ s
    · exact .inl (.of_eq rfl rfl)
    · exact .inl (.of_eq rfl rfl)
  | closed => exact .inl (steady_stop s)

end Session

/-- Whatever changes a regular session, it stays regular, and some moves make the change. -/
theorem Change.spec (change : Change s s') (regular : s.IsRegular) (f : Following) :
    s'.IsRegular ∧ ∃ deeds, Turns.Run (s.world, f) deeds (s'.world, f) := by
  have of_steady : ∀ {s s' : Session}, s.IsRegular → Session.Steady s s' →
      s'.IsRegular ∧ ∃ deeds, Turns.Run (s.world, f) deeds (s'.world, f) :=
    fun regular steady => ⟨steady.isRegular regular, (steady.world regular.world).2.2 f⟩
  cases change with
  | @react n inbox now =>
    have taken : Session.IsRegular { s with inbox } := ⟨regular.world, regular.selection⟩
    rcases Session.steady_or_use_of_react now n { s with inbox } with steady | ⟨con, used⟩
    · exact of_steady (s := { s with inbox }) taken steady
    · rw [used]
      exact Session.use_spec taken con f
  | goOn => exact of_steady regular s.steady_continueReload
  | relay => exact of_steady regular s.steady_relayNews
  | send notices => exact of_steady regular (.of_eq rfl rfl)
  | type bytes => exact of_steady regular (.of_eq rfl rfl)
  | close => exact of_steady regular (.of_eq rfl rfl)
  | serve server => exact of_steady regular ⟨.within {}, rfl⟩
  | respond responded => exact of_steady regular (Session.steady_respond? responded)

/-! ## Runs -/

/-- The runs that begin at `start`: what has been done, the latest deed first, the session that it
has led to, and how far the follower has come then. -/
inductive Run (start : Session) : List Deed → Session × Following → Prop where
  | nil : Run start [] (start, {})
  /-- The tasks do something, and leave it to the loop to select cons. -/
  | work {past deeds : List Deed} {s : Session} {w : World} {f f' : Following}
      (run : Run start past (s, f)) (moves : Turns.Run (s.world, f) deeds (w, f'))
      (regular : w.IsRegular) (same : w.selection? = s.world.selection?) :
      Run start (deeds ++ past) ({ s with world := w }, f')
  /-- Something else happens, at whatever point the follower is. -/
  | change {past deeds : List Deed} {s s' : Session} {f : Following}
      (run : Run start past (s, f)) (change : Change s s')
      (moves : Turns.Run (s.world, f) deeds (s'.world, f)) : Run start (deeds ++ past) (s', f)

namespace Run

variable {start : Session}

/-- What is done in a run of a session is a run of the world. -/
theorem world (run : Run start past (s, f)) : Turns.Run (start.world, {}) past (s.world, f) := by
  generalize hx : (s, f) = x at run
  induction run generalizing s f with
  | nil =>
    cases hx
    exact .refl
  | work _ moves _ _ ih =>
    cases hx
    exact (ih rfl).trans moves
  | change _ _ moves ih =>
    cases hx
    exact (ih rfl).trans moves

theorem regular (begins : start.IsRegular) (run : Run start past (s, f)) : s.IsRegular := by
  generalize hx : (s, f) = x at run
  induction run generalizing s f with
  | nil =>
    cases hx
    exact begins
  | work _ _ regular same ih =>
    cases hx
    exact ⟨regular, same.trans (ih rfl).selection⟩
  | @change _ _ _ _ f _ change _ ih =>
    cases hx
    exact (change.spec (ih rfl) f).1

/-! ### Single steps -/

/-- A line selects a con. -/
theorem use (run : Run start past (s, f)) {inbox : Inbox Resource} {text con : String} (now : Instant)
    (running : s.isRunning = true) (free : s.isWaiting = false)
    (next : s.inbox.next = some (.line text, inbox))
    (parsed : Action.ofLine text = .ok (.use con)) :
    Run start past (({ s with inbox } : Session).use con, f) := by
  have react : ({ s with inbox } : Session).react now (.line text) =
      ({ s with inbox } : Session).use con := by
    simp only [Session.react, parsed]
    rfl
  have change := Change.react now running free next
  rw [react] at change
  refine run.change change ((Turns.Run.single (.use con)).trans (.single (.rest ?_)))
  exact World.alike_wake Session.follower (s.world.setChannel 0 { con })

variable (begins : start.IsRegular) (run : Run start past (s, f))
include begins run

/-- A resource makes a move that activates nothing. -/
theorem move (r : Resource) {m : Move} (inactive : m.activated? = none) :
    Run start (⟨s.world.stage, r, m⟩ :: past) ({ s with world := (s.world.act 0 r m).2 }, f) := by
  have regular := run.regular begins
  refine run.work (.single (.move r inactive)) (regular.world.act r m) ?_
  exact World.selection?_congr (World.alike_act 0 r m s.world).channels

/-- The follower takes up the con on the channel. -/
theorem look {c : Turns.Channel} (channel : s.world.channel? 0 = some c) :
    Run start past ({ s with world := s.world.setChannel 0 { c with isNew := false } },
      ⟨some c.con, (s.world.convention 0).resources⟩) := by
  obtain ⟨regular, same, -⟩ := World.begun_look (run.regular begins).world channel
  exact run.work (.single (.look channel)) regular same

/-- The follower activates the con for a resource. -/
theorem activate {r : Resource} {con : String} (taken : f.con = some con) (todo : r ∈ f.todo) :
    Run start (⟨s.world.stage, r, .activate con⟩ :: past)
      ({ s with world := (s.world.act 0 r (.activate con)).2 },
        { f with todo := f.todo.filter (· ≠ r) }) := by
  have regular := run.regular begins
  refine run.work (.single (.activate taken todo)) (regular.world.act r (.activate con)) ?_
  exact World.selection?_congr (World.alike_act 0 r (.activate con) s.world).channels

end Run

/-! ## Sessions of the program -/

/-- The session is what some run has led to, and the follower has nothing left to do. -/
def Reached (start s : Session) : Prop := ∃ past f, f.todo = [] ∧ Run start past (s, f)

namespace Reached

variable {start : Session}

theorem regular (begins : start.IsRegular) (reached : Reached start s) : s.IsRegular := by
  obtain ⟨past, f, -, run⟩ := reached
  exact run.regular begins

theorem change (begins : start.IsRegular) (reached : Reached start s) (change : Change s s') :
    Reached start s' := by
  obtain ⟨past, f, idle, run⟩ := reached
  obtain ⟨-, deeds, moves⟩ := change.spec (run.regular begins) f
  exact ⟨deeds ++ past, f, idle, run.change change moves⟩

theorem work (reached : Reached start s) {w : World}
    (ends : ∀ f : Following, f.todo = [] → Ends (s.world, f) w) :
    Reached start { s with world := w } := by
  obtain ⟨past, f, idle, run⟩ := reached
  obtain ⟨regular, same, f', deeds, idle', moves⟩ := ends f idle
  exact ⟨deeds ++ past, f', idle', run.work moves regular same⟩

/-- A task that was woken has its turn. -/
theorem turn (begins : start.IsRegular) (reached : Reached start s) {id : TaskId}
    (woken : id ∈ s.world.queue) : Reached start
      { s with world := World.turn id { s.world with queue := s.world.queue.erase id } } :=
  reached.work fun _ idle => World.ends_woken (reached.regular begins).world woken idle

/-- Time passes. -/
theorem tick (begins : start.IsRegular) (reached : Reached start s) {w : World}
    (ticked : s.world.tick? = some w) : Reached start { s with world := w } :=
  reached.work fun _ idle => (World.keeps_tick? ticked).ends (reached.regular begins).world idle

theorem settleTasks (begins : start.IsRegular) (fuel : Nat) (reached : Reached start s) :
    Reached start { s with world := s.world.settle fuel } := by
  induction fuel generalizing s with
  | zero => exact reached
  | succ fuel ih =>
    unfold World.settle
    split
    · exact reached
    · rename_i id queue woken
      have turned := reached.turn begins (show id ∈ s.world.queue by simp [woken])
      rw [woken, List.erase_cons_head] at turned
      exact ih turned

theorem settle (begins : start.IsRegular) (reached : Reached start s) :
    Reached start s.settle := (reached.settleTasks begins _).change begins .relay

theorem loop (begins : start.IsRegular) (now : Instant) (fuel : Nat)
    (reached : Reached start s) : Reached start (s.loop now fuel) := by
  induction fuel generalizing s with
  | zero => exact reached
  | succ fuel ih =>
    unfold Session.loop
    split
    · exact reached
    · rename_i running
      have running : s.isRunning = true := by simpa using running
      split
      · rename_i waiting
        split
        · exact ih (reached.change begins (.goOn running waiting))
        · exact reached
      · rename_i free
        split
        · exact reached
        · rename_i n inbox next
          exact ih (reached.change begins (.react now running (by simpa using free) next))

/-- What the program comes to, however it goes on, is what a run comes to. -/
theorem calm (begins : start.IsRegular) (now : Instant) (fuel : Nat) (reached : Reached start s) :
    Reached start (s.calm now fuel) := by
  induction fuel generalizing s with
  | zero => exact reached
  | succ fuel ih =>
    have settled := reached.settle begins
    unfold Session.calm
    dsimp only
    split
    · exact ih (settled.loop begins now _)
    · exact settled

end Reached

/-! ## The beginning -/

section Beginning

variable (policy : Retry.Policy) (hasAnnouncements : Bool) (store : Store) (server : Server)
  (con : String)

/-- The world of a session that begins, before the follower does. -/
def worldBefore : World :=
  World.setChannel 0 { con }
    { policy, hasAnnouncements, store, server, sessions := [.new policy hasAnnouncements] }

theorem channel?_worldBefore :
    (worldBefore policy hasAnnouncements store server con).channel? 0 = some { con } :=
  World.channel?_setChannel ..

theorem begins_start :
    Turns.Run.Begins policy hasAnnouncements store
      (Session.start policy hasAnnouncements store server con).world := by
  have alike := World.alike_spawn (.follower 0) { session := 0 }
    (worldBefore policy hasAnnouncements store server con)
  refine ⟨alike.sessions, alike.store, fun c channel => ?_⟩
  have channel := (alike.channel? 0).symm.trans channel
  rw [channel?_worldBefore] at channel
  cases channel
  rfl

theorem isRegular_start :
    (Session.start policy hasAnnouncements store server con).IsRegular := by
  have first : TaskId.IsFirst (.follower 0) := rfl
  have before : (worldBefore policy hasAnnouncements store server con).IsRegular :=
    ⟨rfl, nofun, nofun, nofun⟩
  obtain ⟨regular, channels, -⟩ := Keeps.spawn first .idle before
  refine ⟨regular, (World.selection?_congr channels).trans ?_⟩
  rw [World.selection?, channel?_worldBefore]
  rfl

end Beginning

end OfflineSchedule.Watch
