import OfflineSchedule.Proofs.Turns.Turn
/-!
# What a follower takes up

A follower and its task, step by step: values are sent at any moment, between any two strands of an
activation as well, and everything else happens as it likes. The follower has taken up some of the
values that were sent, in order, and each resource has been activated for those, the last one
perhaps excepted (`Tracks`). So a follower that waits, and has seen what is on the channel, has
activated the value that was sent last.
-/

namespace OfflineSchedule.Turns

open Http (Outcome)
open Json (Value)
open Retry (Moment)
open Sync (Progress)

/-! ## What is selected -/

/-- The worlds have the same resources, and those have selected the same cons. -/
structure World.SelectsAlike (w w' : World) : Prop where
  has : ∀ r, w'.stage.convention.has r = w.stage.convention.has r
  selected : ∀ r, (w'.stage.scene r).sync.selected = (w.stage.scene r).sync.selected

/-- As long as the follower has taken up nothing, nothing is selected. -/
theorem Run.selectsAlike {x y : World × Following} {past : List Convention.Deed}
    (run : Run x past y) (one : x.1.sessions.length = 1) (idle : y.2.con = none) :
    y.1.sessions.length = 1 ∧ x.1.SelectsAlike y.1 := by
  induction run with
  | refl => exact ⟨one, fun _ => rfl, fun _ => rfl⟩
  | step _ step ih =>
    cases step with
    | rest alike =>
      obtain ⟨one, has, selected⟩ := ih idle
      refine ⟨by rwa [alike.sessions], fun r => ?_, fun r => ?_⟩
      · rw [alike.stage, has]
      · rw [alike.stage, selected]
    | move other inactive =>
      obtain ⟨one, has, selected⟩ := ih idle
      refine ⟨by rwa [World.length_sessions_act], fun r => ?_, fun r => ?_⟩
      · rw [World.stage_act other one, Convention.Stage.has_next, has]
      · rw [World.stage_act other one, Convention.Stage.selected_next, inactive, Option.none_or,
          ite_self, selected]
    | activate taken => exact nomatch taken.symm.trans idle
    | look => cases idle
    | use =>
      obtain ⟨one, has, selected⟩ := ih idle
      exact ⟨one, has, selected⟩

/-- The con that a strand is going to activate. -/
def Strand.activated? : Strand → Option String
  | .fresh m => m.activated?
  | _ => none

theorem Strand.activated?_of_begun {s : Strand} (begun : ∀ m, s ≠ .fresh m) :
    s.activated? = none := by
  cases s with
  | fresh m => exact absurd rfl (begun m)
  | _ => rfl

/-- The con that is still to be activated for a resource. -/
def Task.pending? (r : Resource) (t : Task) : Option String := (t.strand? r).bind Strand.activated?

theorem Task.pending?_setStrand {r : Resource} {s s' : Strand} {t : Task}
    (known : t.strand? r = some s) (r' : Resource) :
    (t.setStrand r s').pending? r' = if r' = r then s'.activated? else t.pending? r' := by
  rw [pending?, strand?_setStrand, known]
  split <;> rfl

theorem Strand.finished_of_ended {strands : List (Resource × Strand)}
    {results : List (Resource × Progress)}
    (ended : (strands.mapM fun (r, s) => s.result?.map (r, ·)) = some results) :
    ∀ p ∈ strands, ∃ result, p.2 = .finished result := by
  induction strands generalizing results with
  | nil => exact fun _ mem => nomatch mem
  | cons p strands ih =>
    obtain ⟨r, s⟩ := p
    simp only [List.mapM_cons, Option.bind_eq_bind, Option.bind_eq_some_iff] at ended
    obtain ⟨_, here, _, there, -⟩ := ended
    intro p mem
    rcases List.mem_cons.1 mem with rfl | mem
    · cases s with
      | finished result => exact ⟨result, rfl⟩
      | _ => cases here
    · exact ih there p mem

/-- When all strands have ended, nothing is still to be activated. -/
theorem Task.pending?_of_ended {t : Task} {results : List (Resource × Progress)}
    (ended : t.results? = some results) (r : Resource) : t.pending? r = none := by
  unfold pending? strand?
  cases found : t.strands.find? (·.1 = r) with
  | none => rfl
  | some p =>
    obtain ⟨result, finished⟩ :=
      Strand.finished_of_ended ended p (List.mem_of_find?_eq_some found)
    rw [Option.map_some, Option.bind_some, finished]
    rfl

theorem Task.pending?_strands {session : Nat} {rs : List Resource} {con : String} (r : Resource) :
    ({ session, strands := World.strands rs (.activate con) } : Task).pending? r =
      if r ∈ rs then some con else none := by
  rw [pending?, strand?_strands]
  split <;> rfl

namespace World

variable {w w' : World}

theorem Keeps.selectsAlike (h : Keeps w w') (regular : w.IsRegular) : w.SelectsAlike w' := by
  obtain ⟨past, run⟩ := (h regular).2.2 {}
  exact (run.selectsAlike regular.one rfl).2

/-- A strand that goes on selects the con that it activates, and nothing else. -/
structure Activates (r : Resource) (con? : Option String) (w w' : World) : Prop where
  regular : w'.IsRegular
  channels : w'.channels = w.channels
  has : ∀ r', w'.stage.convention.has r' = w.stage.convention.has r'
  selected : ∀ r', (w'.stage.scene r').sync.selected =
    if r' = r then con?.or (w.stage.scene r').sync.selected
    else (w.stage.scene r').sync.selected

theorem Activates.selectsAlike {r : Resource} (h : Activates r none w w') : w.SelectsAlike w' := by
  refine ⟨h.has, fun r' => ?_⟩
  rw [h.selected, Option.none_or, ite_self]

theorem activates_runStrand (regular : w.IsRegular) (r : Resource) (s : Strand) :
    Activates r s.activated? w (w.runStrand (.follower 0) 0 r s).2 := by
  have first : TaskId.IsFirst (.follower 0) := rfl
  by_cases begun : ∀ m, s ≠ .fresh m
  · -- To look at one strand it is enough to look at a task that has no other one.
    have known : ({ session := 0, strands := [(r, s)] } : Task).strand? r = some s := by
      simp [Task.strand?]
    have passive : Task.IsPassive { session := 0, strands := [(r, s)] } :=
      .single fun m fresh => absurd fresh (begun m)
    obtain ⟨f, goes, does⟩ := goes_runStrand (f := {}) first passive.fits known w
    have same : f = {} := does.idle fun r' _ => passive.not_activates r'
    rw [same] at goes
    obtain ⟨regular', channels, past, run⟩ := goes regular
    obtain ⟨-, has, selected⟩ := run.selectsAlike regular.one rfl
    refine ⟨regular', channels, has, fun r' => ?_⟩
    rw [Strand.activated?_of_begun begun, Option.none_or, ite_self]
    exact selected r'
  · simp only [not_forall, not_not] at begun
    obtain ⟨m, rfl⟩ := begun
    have acted := regular.act r m
    obtain ⟨regular', channels, past, run⟩ :=
      goes_proceed first r {} requestLimit (w.act 0 r m).1 (w.act 0 r m).2 acted
    obtain ⟨-, has, selected⟩ := run.selectsAlike acted.one rfl
    refine ⟨regular', channels.trans (alike_act 0 r m w).channels, fun r' => ?_, fun r' => ?_⟩
    · rw [runStrand, World.move, has, stage_act r regular.one, Convention.Stage.has_next]
    · rw [runStrand, World.move, selected, stage_act r regular.one,
        Convention.Stage.selected_next]
      rfl

end World

/-! ## Histories -/

namespace Follower

/-- What is noted of a follower. -/
inductive Mark where
  /-- A con is put on the channel. -/
  | sent (con : String)
  /-- The follower takes up the con that is on the channel. -/
  | took (con : String)
  /-- The follower activates a con for a resource. -/
  | activated (r : Resource) (con : String)
deriving DecidableEq, Repr

def Mark.sent? : Mark → Option String
  | sent con => some con
  | _ => none

def Mark.took? : Mark → Option String
  | took con => some con
  | _ => none

def Mark.activated? (r : Resource) : Mark → Option String
  | activated r' con => if r' = r then some con else none
  | _ => none

/-- The cons that marks of one kind are about, in order, of a history with the latest mark first. -/
def consOf (kind : Mark → Option String) (past : List Mark) : List String :=
  (past.filterMap kind).reverse

theorem consOf_append (kind : Mark → Option String) (later past : List Mark) :
    consOf kind (later ++ past) = consOf kind past ++ consOf kind later := by
  simp [consOf]

/-- The cons that were sent. -/
def sent : List Mark → List String := consOf Mark.sent?

/-- The cons that the follower has taken up. -/
def taken : List Mark → List String := consOf Mark.took?

/-- The cons that the follower has activated for a resource. -/
def activations (r : Resource) : List Mark → List String := consOf (Mark.activated? r)

/-- The con that was sent last, or the one that was there at first. -/
def latest (con : String) (past : List Mark) : String := (sent past).getLastD con

/-- What has happened since a con was sent last. -/
def sinceSent (past : List Mark) : List Mark := past.takeWhile (·.sent?.isNone)

/-! ## Steps -/

/-- One step of a follower with its task, or one of its surroundings, and what is noted of it. -/
inductive Step : World × Task → List Mark → World × Task → Prop where
  /-- The follower has no part in what happens, and the channel stays as it is. -/
  | others {w w' : World} {t : Task} (keeps : w.Keeps w') : Step (w, t) [] (w', t)
  | send {w : World} {t : Task} {c : Channel} (channel : w.channel? 0 = some c) (con : String) :
      Step (w, t) [.sent con] (w.setChannel 0 { c with con, isNew := true }, t)
  /-- Nothing is going to be sent any more. -/
  | close {w : World} {t : Task} {c : Channel} (channel : w.channel? 0 = some c) :
      Step (w, t) [] (w.setChannel 0 { c with isOpen := false }, t)
  /-- One strand goes on as far as it can. -/
  | strand {w : World} {t : Task} {r : Resource} {s : Strand} (known : t.strand? r = some s) :
      Step (w, t) (s.activated?.map (.activated r)).toList
        ((w.runStrand (.follower 0) 0 r s).2,
          t.setStrand r (w.runStrand (.follower 0) 0 r s).1)
  /-- The server answers a request that it has kept. -/
  | answer {w : World} {t : Task} {r : Resource} {ticket : Nat}
      (known : t.strand? r = some (.waiting ticket none)) (answer : Moment × Outcome Value) :
      Step (w, t) [] (w, t.setStrand r (.waiting ticket (some answer)))
  /-- All strands have had their turns. -/
  | turn {w : World} {t : Task} (turns : Nat) : Step (w, t) [] (w, { t with turns })
  /-- All strands have ended, and there is a con that was not seen: it is taken up. -/
  | look {w : World} {t : Task} {results : List (Resource × Progress)} {c : Channel}
      (ended : t.results? = some results) (channel : w.channel? 0 = some c)
      (isNew : c.isNew = true) :
      Step (w, t) [.took c.con] (w.setChannel 0 { c with isNew := false },
        { session := 0, strands := World.strands (w.convention 0).resources (.activate c.con) })
  /-- All strands have ended, and there is nothing to do. -/
  | rest {w : World} {t : Task} {results : List (Resource × Progress)}
      (ended : t.results? = some results) : Step (w, t) [] (w, { session := 0 })

/-- Steps, one after the other, and what is noted of them, the latest mark first. -/
inductive Run : World × Task → List Mark → World × Task → Prop where
  | refl {x : World × Task} : Run x [] x
  | step {x y z : World × Task} {past marks : List Mark} (run : Run x past y)
      (step : Step y marks z) : Run x (marks ++ past) z

theorem Run.trans {x y z : World × Task} {past later : List Mark} (run : Run x past y)
    (next : Run y later z) : Run x (later ++ past) z := by
  induction next with
  | refl => exact run
  | step _ step ih =>
    have run := ih.step step
    rwa [← List.append_assoc] at run

theorem Run.single {x y : World × Task} {marks : List Mark} (step : Step x marks y) :
    Run x marks y := by
  have run := Run.refl.step step
  rwa [List.append_nil] at run

/-- A world with a con on the channel that the follower has not seen. -/
structure Begins (con : String) (w₀ : World) : Prop where
  regular : w₀.IsRegular
  channel : w₀.channel? 0 = some { con }

/-! ### What is noted -/

variable {con : String} {past : List Mark}

theorem consOf_cons (kind : Mark → Option String) (m : Mark) (past : List Mark) :
    consOf kind (m :: past) = consOf kind past ++ (kind m).toList := by
  cases h : kind m <;> simp [consOf, h]

@[simp] theorem sent_cons (m : Mark) (past : List Mark) :
    sent (m :: past) = sent past ++ m.sent?.toList := consOf_cons ..

@[simp] theorem taken_cons (m : Mark) (past : List Mark) :
    taken (m :: past) = taken past ++ m.took?.toList := consOf_cons ..

@[simp] theorem activations_cons (r : Resource) (m : Mark) (past : List Mark) :
    activations r (m :: past) = activations r past ++ (m.activated? r).toList := consOf_cons ..

theorem sinceSent_cons {m : Mark} (other : m.sent? = none) (past : List Mark) :
    sinceSent (m :: past) = m :: sinceSent past := by
  simp [sinceSent, other]

/-- What was sent ends with the latest con. -/
theorem dropLast_sent (con : String) (past : List Mark) :
    (con :: sent past).dropLast ++ [latest con past] = con :: sent past := by
  refine List.dropLast_append_getLast? _ ?_
  rw [List.getLast?_cons, latest, List.getLastD_eq_getLast?]
  rfl

/-! ## How far the follower has come -/

/-- What the follower has taken up of what was sent, when `c` is on the channel. -/
structure Caught (con : String) (past : List Mark) (c : Channel) : Prop where
  /-- The channel has what was sent last. -/
  last : c.con = latest con past
  /-- What was not seen was not taken up either. -/
  unseen : c.isNew = true → (taken past).Sublist (con :: sent past).dropLast
  sublist : (taken past).Sublist (con :: sent past)
  /-- What was seen was taken up. -/
  seen : c.isNew = false → (taken past).getLast? = some c.con

namespace Caught

variable {c : Channel}

theorem send (h : Caught con past c) (con' : String) :
    Caught con (.sent con' :: past) { c with con := con', isNew := true } := by
  have sent : sent (.sent con' :: past) = sent past ++ [con'] := sent_cons ..
  have taken : taken (.sent con' :: past) = taken past := by simp [Mark.took?]
  refine ⟨?_, fun _ => ?_, ?_, nofun⟩
  · rw [latest, sent, List.getLastD_concat]
  · rw [taken, sent, ← List.cons_append, List.dropLast_concat]
    exact h.sublist
  · rw [taken, sent, ← List.cons_append]
    exact h.sublist.trans (List.sublist_append_left _ _)

theorem look (h : Caught con past c) (isNew : c.isNew = true) :
    Caught con (.took c.con :: past) { c with isNew := false } := by
  have sent : sent (.took c.con :: past) = sent past := by simp [Mark.sent?]
  have taken : taken (.took c.con :: past) = taken past ++ [c.con] := taken_cons ..
  refine ⟨?_, nofun, ?_, fun _ => ?_⟩
  · rw [latest, sent]
    exact h.last
  · rw [taken, sent, ← dropLast_sent con past, ← h.last]
    exact (h.unseen isNew).append_right _
  · rw [taken, List.getLast?_concat]

theorem close (h : Caught con past c) : Caught con past { c with isOpen := false } :=
  ⟨h.last, h.unseen, h.sublist, h.seen⟩

theorem activated (h : Caught con past c) (r : Resource) (con' : String) :
    Caught con (.activated r con' :: past) c := by
  have sent : sent (.activated r con' :: past) = sent past := by simp [Mark.sent?]
  have taken : taken (.activated r con' :: past) = taken past := by simp [Mark.took?]
  refine ⟨?_, ?_, ?_, ?_⟩
  · rw [latest, sent]
    exact h.last
  · rw [taken, sent]
    exact h.unseen
  · rw [taken, sent]
    exact h.sublist
  · rw [taken]
    exact h.seen

end Caught

/-- What a follower has done so far. -/
structure Tracks (con : String) (past : List Mark) (w : World) (t : Task) : Prop where
  regular : w.IsRegular
  session : t.session = 0
  caught : ∃ c, w.channel? 0 = some c ∧ Caught con past c
  /-- Each resource was activated for all that was taken up, but for what its strand is going to
  activate. -/
  begun : ∀ r, activations r past ++ (t.pending? r).toList =
    if w.stage.convention.has r then taken past else []
  selected : ∀ r con', (activations r past).getLast? = some con' →
    (w.stage.scene r).sync.selected = some con'
  /-- When there is nothing new on the channel, what is there was activated after it was sent. -/
  recent : ∀ c, w.channel? 0 = some c → c.isNew = false → ∀ r,
    w.stage.convention.has r = true → t.pending? r = none → .activated r c.con ∈ sinceSent past

namespace Tracks

variable {w w' : World} {t t' : Task}

theorem init {w₀ : World} (begins : Begins con w₀) : Tracks con [] w₀ { session := 0 } := by
  refine ⟨begins.regular, rfl, ⟨_, begins.channel, rfl, fun _ => List.nil_sublist _,
    List.nil_sublist _, nofun⟩, fun r => ?_, nofun, fun c channel seen => ?_⟩
  · split <;> rfl
  · rw [begins.channel] at channel
    cases channel
    cases seen

/-- The world may change as long as nothing else is selected and the channel stays as it is. -/
theorem of_selectsAlike (h : Tracks con past w t) (regular : w'.IsRegular)
    (channels : w'.channels = w.channels) (alike : w.SelectsAlike w') : Tracks con past w' t := by
  have channel := World.channel?_congr channels 0
  refine ⟨regular, h.session, ?_, fun r => ?_, fun r con' last => ?_, fun c known seen r has => ?_⟩
  · rw [channel]
    exact h.caught
  · rw [alike.has]
    exact h.begun r
  · rw [alike.selected]
    exact h.selected r con' last
  · rw [channel] at known
    rw [alike.has] at has
    exact h.recent c known seen r has

/-- The task may change as long as it has as much to activate. -/
theorem of_pending (h : Tracks con past w t) (session : t'.session = 0)
    (pending : ∀ r, t'.pending? r = t.pending? r) : Tracks con past w t' := by
  refine ⟨h.regular, session, h.caught, fun r => ?_, h.selected, fun c known seen r has => ?_⟩
  · rw [pending]
    exact h.begun r
  · rw [pending]
    exact h.recent c known seen r has

/-- A resource is activated for what its strand was going to activate. -/
theorem activated (h : Tracks con past w t) {r : Resource} {con' : String}
    (here : t.pending? r = some con') (session : t'.session = 0)
    (pending : ∀ r', t'.pending? r' = if r' = r then none else t.pending? r')
    (acts : World.Activates r (some con') w w') :
    Tracks con (.activated r con' :: past) w' t' := by
  have channel := World.channel?_congr acts.channels 0
  have taken_eq : taken (.activated r con' :: past) = taken past := by simp [Mark.took?]
  have own : activations r (.activated r con' :: past) = activations r past ++ [con'] := by
    simp [Mark.activated?]
  have foreign : ∀ r', r' ≠ r →
      activations r' (.activated r con' :: past) = activations r' past := by
    intro r' other
    simp [Mark.activated?, Ne.symm other]
  have upTo := h.begun r
  rw [here, Option.toList_some] at upTo
  refine ⟨acts.regular, session, ?_, fun r' => ?_, fun r' x last => ?_,
    fun c known seen r' has none => ?_⟩
  · obtain ⟨c, known, caught⟩ := h.caught
    exact ⟨c, channel.trans known, caught.activated r con'⟩
  · rw [acts.has, taken_eq, pending]
    by_cases hr : r' = r
    · subst hr
      rw [if_pos rfl, own, Option.toList_none, List.append_nil, upTo]
    · rw [if_neg hr, foreign r' hr]
      exact h.begun r'
  · rw [acts.selected]
    by_cases hr : r' = r
    · subst hr
      rw [own, List.getLast?_concat] at last
      rw [if_pos rfl]
      exact last
    · rw [foreign r' hr] at last
      rw [if_neg hr]
      exact h.selected r' x last
  · rw [channel] at known
    rw [acts.has] at has
    rw [sinceSent_cons rfl]
    by_cases hr : r' = r
    · -- What the strand was going to activate is what was taken up last.
      subst hr
      obtain ⟨c', known', caught⟩ := h.caught
      cases known.symm.trans known'
      have last := caught.seen seen
      rw [if_pos has] at upTo
      rw [← upTo, List.getLast?_concat] at last
      cases last
      exact List.mem_cons_self
    · rw [pending, if_neg hr] at none
      exact List.mem_cons_of_mem _ (h.recent c known seen r' has none)

/-- A strand goes on. -/
theorem strand (h : Tracks con past w t) {r : Resource} {s s' : Strand}
    (known : t.strand? r = some s) (begun : ∀ m, s' ≠ .fresh m)
    (acts : World.Activates r s.activated? w w') :
    Tracks con ((s.activated?.map (.activated r)).toList ++ past) w' (t.setStrand r s') := by
  have here : t.pending? r = s.activated? := by rw [Task.pending?, known, Option.bind_some]
  have pending : ∀ r', (t.setStrand r s').pending? r' =
      if r' = r then none else t.pending? r' := by
    intro r'
    rw [Task.pending?_setStrand known, Strand.activated?_of_begun begun]
  cases activates : s.activated? with
  | none =>
    rw [activates] at here acts
    refine (h.of_selectsAlike acts.regular acts.channels acts.selectsAlike).of_pending h.session
      fun r' => ?_
    rw [pending]
    split
    · rename_i hr
      rw [hr, here]
    · rfl
  | some con' =>
    rw [activates] at here acts
    exact h.activated here h.session pending acts

/-- The follower takes up what is on the channel. -/
theorem look (h : Tracks con past w t) {c : Channel} (idle : ∀ r, t.pending? r = none)
    (channel : w.channel? 0 = some c) (isNew : c.isNew = true) :
    Tracks con (.took c.con :: past) (w.setChannel 0 { c with isNew := false })
      { session := 0, strands := World.strands (w.convention 0).resources (.activate c.con) } := by
  have taken_eq : taken (.took c.con :: past) = taken past ++ [c.con] := taken_cons ..
  have same : ∀ r, activations r (.took c.con :: past) = activations r past := by
    intro r
    simp [Mark.activated?]
  have resources : ∀ r, w.stage.convention.has r = true ↔ r ∈ (w.convention 0).resources :=
    fun r => Convention.mem_resources.symm
  refine ⟨h.regular.setChannel 0 _, rfl, ?_, fun r => ?_,
    fun r con' last => ?_, fun c' known _ r has none => ?_⟩
  · obtain ⟨c', known, caught⟩ := h.caught
    cases channel.symm.trans known
    exact ⟨_, World.channel?_setChannel .., caught.look isNew⟩
  · have upTo := h.begun r
    rw [idle, Option.toList_none, List.append_nil] at upTo
    rw [same, taken_eq, Task.pending?_strands, upTo]
    change _ = if w.stage.convention.has r = true then _ else _
    by_cases has : w.stage.convention.has r = true
    · rw [if_pos has, if_pos has, if_pos ((resources r).1 has), Option.toList_some]
    · rw [if_neg has, if_neg has, if_neg fun mem => has ((resources r).2 mem)]
      rfl
  · rw [same] at last
    exact h.selected r con' last
  · rw [Task.pending?_strands, if_pos ((resources r).1 has)] at none
    cases none

/-- Something is sent. -/
theorem send (h : Tracks con past w t) {c : Channel} (channel : w.channel? 0 = some c)
    (con' : String) :
    Tracks con (.sent con' :: past) (w.setChannel 0 { c with con := con', isNew := true }) t := by
  have taken_eq : taken (.sent con' :: past) = taken past := by simp [Mark.took?]
  have same : ∀ r, activations r (.sent con' :: past) = activations r past := by
    intro r
    simp [Mark.activated?]
  refine ⟨h.regular.setChannel 0 _, h.session, ?_,
    fun r => ?_, fun r x last => ?_, fun c' known seen => ?_⟩
  · obtain ⟨c', known, caught⟩ := h.caught
    cases channel.symm.trans known
    exact ⟨_, World.channel?_setChannel .., caught.send con'⟩
  · rw [same, taken_eq]
    exact h.begun r
  · rw [same] at last
    exact h.selected r x last
  · rw [World.channel?_setChannel] at known
    cases known
    cases seen

theorem close (h : Tracks con past w t) {c : Channel} (channel : w.channel? 0 = some c) :
    Tracks con past (w.setChannel 0 { c with isOpen := false }) t := by
  refine ⟨h.regular.setChannel 0 _, h.session, ?_,
    h.begun, h.selected, fun c' known seen => ?_⟩
  · obtain ⟨c', known, caught⟩ := h.caught
    cases channel.symm.trans known
    exact ⟨_, World.channel?_setChannel .., caught.close⟩
  · rw [World.channel?_setChannel] at known
    cases known
    exact h.recent c channel seen

theorem step {x y : World × Task} {marks : List Mark} (h : Tracks con past x.1 x.2)
    (step : Step x marks y) : Tracks con (marks ++ past) y.1 y.2 := by
  have session := h.session
  cases step with
  | others keeps =>
    obtain ⟨regular, channels, -⟩ := keeps h.regular
    exact h.of_selectsAlike regular channels (keeps.selectsAlike h.regular)
  | send channel con' => exact h.send channel con'
  | close channel => exact h.close channel
  | @strand _ _ r s known =>
    exact h.strand known (World.begun_runStrand _ 0 r s _) (World.activates_runStrand h.regular r s)
  | @answer _ _ r ticket known answer =>
    refine h.of_pending session fun r' => ?_
    rw [Task.pending?_setStrand known]
    split
    · rename_i hr
      rw [hr, Task.pending?, known]
      rfl
    · rfl
  | turn turns => exact h.of_pending session fun _ => rfl
  | look ended channel isNew =>
    exact h.look (Task.pending?_of_ended ended) channel isNew
  | rest ended =>
    refine h.of_pending rfl fun r => ?_
    rw [Task.pending?_of_ended ended]
    rfl

end Tracks

end Follower

end OfflineSchedule.Turns
