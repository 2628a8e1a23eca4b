import OfflineSchedule.Proofs.Turns.Follower
import OfflineSchedule.Proofs.Turns.Spares
/-!
# No switch is lost

The turns of the program are made of the steps of a follower. A turn of the follower itself is a
chain of them, at the end of which it still activates something or has seen all that was sent, and
the turns of all others leave its task alone. So whatever is sent, at whatever moment, the follower
comes to what was sent last (`no_switch_is_lost`).
-/

namespace OfflineSchedule.Turns.Follower

open Retry (Moment)
open Sync (Progress)
open World (Keeps)

variable {w : World} {t : Task} {id : TaskId} {con : String} {past : List Mark}

/-! ## Turns are made of steps -/

/-- Some steps, in which nothing is sent. -/
def Advances (x y : World × Task) : Prop := ∃ marks, sent marks = [] ∧ Run x marks y

namespace Advances

variable {x y z : World × Task}

theorem refl (x : World × Task) : Advances x x := ⟨[], rfl, .refl⟩

theorem trans (h : Advances x y) (h' : Advances y z) : Advances x z := by
  obtain ⟨marks, none, run⟩ := h
  obtain ⟨later, none', run'⟩ := h'
  refine ⟨later ++ marks, ?_, run.trans run'⟩
  rw [sent, consOf_append]
  exact List.append_eq_nil_iff.2 ⟨none, none'⟩

theorem single {marks : List Mark} (none : sent marks = []) (step : Step x marks y) :
    Advances x y := ⟨marks, none, .single step⟩

theorem others {w' : World} (keeps : Keeps w w') : Advances (w, t) (w', t) :=
  single rfl (.others keeps)

end Advances

/-- One strand after the other. -/
theorem advances_runStrands (rs : List Resource) (regular : w.IsRegular) (session : t.session = 0) :
    let y := w.runStrands (.follower 0) rs t
    Advances (w, t) (y.2, y.1) ∧ y.2.IsRegular ∧ y.2.channels = w.channels := by
  induction rs generalizing t w with
  | nil => exact ⟨.refl _, regular, rfl⟩
  | cons r rs ih =>
    unfold World.runStrands
    cases known : t.strand? r with
    | none => exact ih regular session
    | some s =>
      have acts := World.activates_runStrand regular r s
      have step := Step.strand (w := w) known
      have quiet : sent (s.activated?.map (.activated r)).toList = [] := by
        cases s.activated? <;> rfl
      dsimp only
      rw [session]
      generalize w.runStrand (.follower 0) 0 r s = result at *
      obtain ⟨s₁, w₁⟩ := result
      obtain ⟨advances, regular', channels⟩ := ih (t := t.setStrand r s₁) acts.regular session
      exact ⟨(Advances.single quiet step).trans advances, regular', channels.trans acts.channels⟩

theorem advances_runTask (regular : w.IsRegular) (session : t.session = 0) :
    let y := w.runTask (.follower 0) t
    Advances (w, t) (y.2, y.1) ∧ y.2.IsRegular ∧ y.2.channels = w.channels := by
  obtain ⟨advances, kept⟩ := advances_runStrands t.order regular session
  exact ⟨advances.trans (.single rfl (.turn _)), kept⟩

/-- The follower has ended its activations and seen what is on the channel. -/
def Waits (w : World) (t : Task) : Prop :=
  (∃ results, t.results? = some results) ∧ ∃ c, w.channel? 0 = some c ∧ c.isNew = false

/-- The world goes on with the task of the follower, or that has ended because nothing more is going
to be sent. -/
def GoesOn (w : World) (t : Task) : Prop :=
  w.task? (.follower 0) = some t ∨
    Waits w t ∧ ∃ c, w.channel? 0 = some c ∧ c.isOpen = false

section

variable (looks : Nat) {c : Channel}

/-- A turn of the follower that does not take up anything: it stops when its strands have had their
turns. -/
theorem advances_stop {t₁ : Task} {w₁ : World} (ran : w.runTask (.follower 0) t = (t₁, w₁))
    (regular : w₁.IsRegular) (passive : t₁.IsPassive) (channel : w₁.channel? 0 = some c)
    (stops : t₁.results? = none ∨ c.isNew = false) :
    let w' := w.runFollower (.follower 0) 0 (looks + 1) t
    ∃ t', Advances (w₁, t₁) (w', t') ∧ GoesOn w' t' ∧ (t'.results? = none ∨ Waits w' t') := by
  have first : TaskId.IsFirst (.follower 0) := rfl
  have set : ∀ {t' : Task}, t'.IsPassive → Advances (w₁, t') (w₁.setTask (.follower 0) t', t') :=
    fun passive => .others (.setTask first passive)
  rw [World.runFollower, ran]
  dsimp only
  rw [passive.session, channel]
  cases ended : t₁.results? with
  | none => exact ⟨t₁, set passive, .inl (World.task?_setTask_self ..), .inl ended⟩
  | some results =>
    have seen : c.isNew = false := by
      rcases stops with none | seen
      · rw [ended] at none
        cases none
      · exact seen
    have old : ¬c.isNew = true := by simp [seen]
    dsimp only
    rw [if_neg old]
    split
    · -- The task without strands has ended as well.
      have rests : Advances (w₁, t₁) (w₁, { session := 0 }) := .single rfl (.rest ended)
      exact ⟨_, rests.trans (set .idle), .inl (World.task?_setTask_self ..),
        .inr ⟨⟨[], rfl⟩, c, channel, seen⟩⟩
    · rename_i closed
      have one : (w₁.dropTask (.follower 0)).sessions.length = 1 := regular.one
      rw [World.releaseAll_of_one one]
      have waits : Waits (w₁.dropTask (.follower 0)) t₁ := ⟨⟨results, ended⟩, c, channel, seen⟩
      have isClosed : c.isOpen = false := by simpa using closed
      exact ⟨t₁, .others (.dropTask _), .inr ⟨waits, c, channel, isClosed⟩, .inr waits⟩

/-- A turn of the follower that takes up what is on the channel. -/
theorem runFollower_look {t₁ : Task} {w₁ : World} {results : List (Resource × Progress)}
    (ran : w.runTask (.follower 0) t = (t₁, w₁)) (session : t₁.session = 0)
    (ended : t₁.results? = some results) (channel : w₁.channel? 0 = some c)
    (isNew : c.isNew = true) :
    w.runFollower (.follower 0) 0 (looks + 1) t =
      (w₁.setChannel 0 { c with isNew := false }).runFollower (.follower 0) 0 looks
        { session := 0
          strands := World.strands (w₁.convention 0).resources (.activate c.con) } := by
  rw [World.runFollower, ran]
  dsimp only
  rw [session, ended, channel]
  dsimp only
  rw [if_pos isNew]

/-- The follower has its turn. When it stops it has answers to wait for, or has seen what is on the
channel: once it has looked it does not find anything new in the same turn. -/
theorem advances_runFollower (regular : w.IsRegular) (session : t.session = 0)
    (channel : w.channel? 0 = some c) (seen : looks = 0 → c.isNew = false) :
    let w' := w.runFollower (.follower 0) 0 (looks + 1) t
    ∃ t', Advances (w, t) (w', t') ∧ GoesOn w' t' ∧ (t'.results? = none ∨ Waits w' t') := by
  induction looks generalizing t w c with
  | zero =>
    obtain ⟨advances, regular₁, channels⟩ := advances_runTask regular session
    have passive := World.isPassive_runTask (.follower 0) session w
    rw [← World.channel?_congr channels] at channel
    obtain ⟨t', stops, rests⟩ := advances_stop _ rfl regular₁ passive channel (.inr (seen rfl))
    exact ⟨t', advances.trans stops, rests⟩
  | succ looks ih =>
    obtain ⟨advances, regular₁, channels⟩ := advances_runTask regular session
    have passive := World.isPassive_runTask (.follower 0) session w
    rw [← World.channel?_congr channels] at channel
    by_cases stops : (w.runTask (.follower 0) t).1.results? = none ∨ c.isNew = false
    · obtain ⟨t', stops, rests⟩ := advances_stop _ rfl regular₁ passive channel stops
      exact ⟨t', advances.trans stops, rests⟩
    · obtain ⟨running, unseen⟩ := not_or.1 stops
      obtain ⟨results, ended⟩ := Option.ne_none_iff_exists'.1 running
      have isNew : c.isNew = true := by simpa using unseen
      dsimp only
      rw [runFollower_look _ rfl passive.session ended channel isNew]
      have looked := advances.trans (.single rfl (.look ended channel isNew))
      obtain ⟨regular₂, -, fits, -⟩ := World.begun_look regular₁ channel
      obtain ⟨t', goes, rests⟩ :=
        ih regular₂ fits.session (World.channel?_setChannel ..) fun _ => rfl
      exact ⟨t', looked.trans goes, rests⟩

/-- Whichever task has its turn. -/
theorem advances_turn (regular : w.IsRegular) (session : t.session = 0) (first : id.IsFirst)
    (channel : w.channel? 0 = some c) (known : w.task? (.follower 0) = some t) :
    ∃ t', Advances (w, t) (w.turn id, t') ∧ GoesOn (w.turn id) t' ∧
      (id = .follower 0 → t'.results? = none ∨ Waits (w.turn id) t') := by
  by_cases follows : id = .follower 0
  · subst follows
    have turn : w.turn (.follower 0) = w.runFollower (.follower 0) 0 3 t := by
      simp only [World.turn, known]
    rw [turn]
    obtain ⟨t', advances, goesOn, rests⟩ :=
      advances_runFollower 2 regular session channel fun none => absurd none (by decide)
    exact ⟨t', advances, goesOn, fun _ => rests⟩
  · have spared : (w.turn id).task? (.follower 0) = some t :=
      Eq.trans (World.Spares.turn follows w) known
    exact ⟨t, .others (World.keeps_turn first follows w), .inl spared,
      fun same => absurd same follows⟩

end

/-! ## What a run comes to -/

theorem Run.tracks {w₀ : World} {y : World × Task} (begins : Begins con w₀)
    (run : Run (w₀, { session := 0 }) past y) : Tracks con past y.1 y.2 := by
  induction run with
  | refl => exact .init begins
  | step _ step ih => exact ih.step step

/-- **No switch is lost.** Whatever is sent, at whatever moments: the follower takes up a part of it,
in order, and each resource is activated for a part of it, in order. When the follower waits and has
seen what is on the channel, all resources have selected what was sent last and were activated for it
since. And the turns of all tasks are steps of this kind, in which the follower does not stop before
it has answers to wait for or has seen what is on the channel. -/
theorem no_switch_is_lost {w₀ : World} (begins : Begins con w₀)
    (run : Run (w₀, { session := 0 }) past (w, t)) :
    ((taken past).Sublist (con :: sent past) ∧
      ∀ r, (activations r past).Sublist (con :: sent past)) ∧
    (Waits w t → ∀ r, w.stage.convention.has r = true →
      (w.stage.scene r).sync.selected = some (latest con past) ∧
        .activated r (latest con past) ∈ sinceSent past) ∧
    ∀ id, id.IsFirst → w.task? (.follower 0) = some t →
      ∃ t', Advances (w, t) (w.turn id, t') ∧ GoesOn (w.turn id) t' ∧
        (id = .follower 0 → t'.results? = none ∨ Waits (w.turn id) t') := by
  have h := run.tracks begins
  obtain ⟨c, channel, caught⟩ := h.caught
  refine ⟨⟨caught.sublist, fun r => ?_⟩, ?_, fun id first known => ?_⟩
  · have begun := h.begun r
    have upTo : (activations r past).Sublist
        (if w.stage.convention.has r then taken past else []) := by
      rw [← begun]
      exact List.sublist_append_left _ _
    refine upTo.trans ?_
    split
    · exact caught.sublist
    · exact List.nil_sublist _
  · rintro ⟨⟨results, ended⟩, c', channel', seen⟩ r has
    cases channel.symm.trans channel'
    have idle := Task.pending?_of_ended ended r
    have begun := h.begun r
    rw [idle, Option.toList_none, List.append_nil, if_pos has] at begun
    rw [← caught.last]
    refine ⟨h.selected r c.con ?_, h.recent c channel seen r has idle⟩
    rw [begun]
    exact caught.seen seen
  · exact advances_turn h.regular h.session first channel known

/-- A world without a network, in which a request for events takes a while to fail. -/
def slowEvents : World where
  policy := .standard
  hasAnnouncements := false
  store := { kind := .disabled }
  server := .scripted { queued := [(.events, ⟨5, .error Http.transportCode⟩)] }
  sessions := [.new .standard false]
  channels := [(0, { con := "con-a" })]

/-- The world at another moment. -/
def atMoment (now : Moment) (w : World) : World := { w with now }

/-- A con is sent while the events of another one are waited for and nothing else has begun. The
follower takes it up when it is done with the other one. -/
theorem con_sent_meanwhile_is_selected :
    ∃ past w t, Begins "con-a" slowEvents ∧ Run (slowEvents, { session := 0 }) past (w, t) ∧
      sent past = ["con-b"] ∧ activations .info past = ["con-a", "con-b"] ∧ Waits w t ∧
      ∀ r, r ≠ .announcements → (w.stage.scene r).sync.selected = some "con-b" := by
  have begins : Begins "con-a" slowEvents :=
    ⟨⟨rfl, fun _ mem => (nomatch mem), fun _ mem => (nomatch mem), fun _ mem => (nomatch mem)⟩, rfl⟩
  have passes : ∀ w : World, w.Keeps (atMoment 5 w) := fun _ => .within {}
  -- Each state is named before the next step, so that it is evaluated once.
  have run : Run _ _ (_, _) :=
    (Run.refl (x := (slowEvents, { session := 0 }))).step (.look rfl rfl rfl)
  have run : Run _ _ (_, _) := run.step (.strand (r := .events) rfl)
  have run : Run _ _ (_, _) := run.step (.send rfl "con-b")
  have run : Run _ _ (_, _) := run.step (.strand (r := .info) rfl)
  have run : Run _ _ (_, _) := run.step (.strand (r := .pages) rfl)
  have run : Run _ _ (_, _) := run.step (.others (passes _))
  have run : Run _ _ (_, _) := run.step (.strand (r := .events) rfl)
  have run : Run _ _ (_, _) := run.step (.look rfl rfl rfl)
  have run : Run _ _ (_, _) := run.step (.strand (r := .events) rfl)
  have run : Run _ _ (_, _) := run.step (.strand (r := .info) rfl)
  have run : Run _ _ (_, _) := run.step (.strand (r := .pages) rfl)
  obtain ⟨-, switched, -⟩ := no_switch_is_lost begins run
  refine ⟨_, _, _, begins, run, rfl, rfl, ⟨⟨_, rfl⟩, _, rfl, rfl⟩, fun r present => ?_⟩
  refine (switched ⟨⟨_, rfl⟩, _, rfl, rfl⟩ r ?_).1
  cases r with
  | announcements => exact absurd rfl present
  | _ => rfl

end OfflineSchedule.Turns.Follower
