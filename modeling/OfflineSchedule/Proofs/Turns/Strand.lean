import OfflineSchedule.Proofs.Turns.Regular
/-!
# Strands are made of steps

When the strands of a task go on, that is a chain of steps as runs have them. At the end all strands
are under way, and the follower has begun with what they were to do.
-/

namespace OfflineSchedule.Turns.World

open Retry (Moment)
open Sync (Move Progress)

variable {w w' : World} {id : TaskId}

/-! ## Chains of steps -/

/-- A regular world becomes another one in some steps, and the channels stay as they are. -/
def Goes (x y : World × Following) : Prop :=
  x.1.IsRegular → y.1.IsRegular ∧ y.1.channels = x.1.channels ∧ ∃ past, Run x past y

namespace Goes

variable {x y z : World × Following} {f : Following}

theorem refl : Goes x x := fun h => ⟨h, rfl, [], .refl⟩

theorem trans (hxy : Goes x y) (hyz : Goes y z) : Goes x z := by
  intro hx
  obtain ⟨hy, channels, past, run⟩ := hxy hx
  obtain ⟨hz, channels', past', run'⟩ := hyz hy
  exact ⟨hz, channels'.trans channels, past' ++ past, run.trans run'⟩

theorem rest (alike : w.Alike w') (regular : w.IsRegular → w'.IsRegular) : Goes (w, f) (w', f) :=
  fun h => ⟨regular h, alike.channels, [], .single (.rest alike)⟩

theorem act (r : Resource) {m : Move} (inactive : m.activated? = none) :
    Goes (w, f) ((w.act 0 r m).2, f) :=
  fun h => ⟨h.act r m, (alike_act 0 r m w).channels, _, .single (.move r inactive)⟩

theorem activate {r : Resource} {con : String} (taken : f.con = some con) (todo : r ∈ f.todo) :
    Goes (w, f) ((w.act 0 r (.activate con)).2, { f with todo := f.todo.filter (· ≠ r) }) :=
  fun h => ⟨h.act r (.activate con), (alike_act 0 r (.activate con) w).channels, _,
    .single (.activate taken todo)⟩

theorem setTask (first : id.IsFirst) {t : Task} (passive : t.IsPassive) :
    Goes (w, f) (w.setTask id t, f) :=
  rest {} fun h => h.setTask first passive

theorem within (within : w.Within w') : Goes (w, f) (w', f) :=
  rest within.toAlike fun h => h.within within

theorem wake (first : id.IsFirst) : Goes (w, f) (w.wake id, f) :=
  rest (alike_wake id w) fun h => h.wake first

theorem setAlarm (first : id.IsFirst) (due : Moment) : Goes (w, f) (w.setAlarm due id, f) :=
  rest {} fun h => h.setAlarm first due

theorem wakeEach {ids : List TaskId} (first : ∀ id ∈ ids, id.IsFirst) :
    Goes (w, f) (ids.foldl (fun w id => w.wake id) w, f) := by
  induction ids generalizing w with
  | nil => exact refl
  | cons id ids ih =>
    exact (wake (first id List.mem_cons_self)).trans
      (ih fun id' mem => first id' (List.mem_cons_of_mem id mem))

end Goes

/-! ### Strands under way -/

theorem begun_proceed (id : TaskId) (session : Nat) (r : Resource) (requests : Nat) (p : Progress)
    (w : World) : ∀ m, (proceed id session r requests p w).1 ≠ .fresh m := by
  induction requests generalizing p w with
  | zero => cases p <;> exact nofun
  | succ requests ih =>
    cases p with
    | sent ticket g =>
      unfold proceed
      dsimp only
      split
      · exact nofun
      · split
        · exact ih _ _
        · exact nofun
    | _ => exact nofun

/-- A strand that has had its turn is under way. -/
theorem begun_runStrand (id : TaskId) (session : Nat) (r : Resource) (s : Strand) (w : World) :
    ∀ m, (w.runStrand id session r s).1 ≠ .fresh m := by
  cases s with
  | fresh m => exact begun_proceed id session r requestLimit _ _
  | waiting ticket answer =>
    cases answer with
    | none => exact nofun
    | some answer =>
      unfold runStrand
      dsimp only
      split
      · exact begun_proceed id session r requestLimit _ _
      · exact nofun
  | joining ticket =>
    unfold runStrand
    dsimp only
    split <;> exact nofun
  | finished result => exact nofun

/-- When the strands for some resources have had their turns, they are under way. -/
theorem begun_runStrands (id : TaskId) (rs : List Resource) {r : Resource} {t : Task}
    (h : r ∈ rs ∨ t.HasBegun r) (w : World) : (runStrands id rs t w).1.HasBegun r := by
  induction rs generalizing t w with
  | nil => exact h.resolve_left List.not_mem_nil
  | cons r' rs ih =>
    unfold runStrands
    cases known : t.strand? r' with
    | none =>
      refine ih ?_ w
      rcases h with mem | begun
      · rcases List.mem_cons.1 mem with rfl | mem
        · exact .inr fun m fresh => nomatch known.symm.trans fresh
        · exact .inl mem
      · exact .inr begun
    | some s =>
      have under_way := begun_runStrand id t.session r' s w
      refine ih ?_ _
      rcases h with mem | begun
      · rcases List.mem_cons.1 mem with rfl | mem
        · exact .inr (t.hasBegun_setStrand r under_way)
        · exact .inl mem
      · exact .inr (begun.setStrand r' under_way)

theorem session_runStrands (id : TaskId) (rs : List Resource) (t : Task) (w : World) :
    (runStrands id rs t w).1.session = t.session := by
  induction rs generalizing t w with
  | nil => rfl
  | cons r rs ih =>
    unfold runStrands
    split
    · exact ih _ _
    · exact ih _ _

theorem mem_order (t : Task) (r : Resource) : r ∈ t.order := by
  have all : r ∈ Resource.all := by cases r <;> decide
  rw [Task.order, List.mem_append, or_comm, ← List.mem_append, List.take_append_drop]
  exact all

/-- When all strands have had their turns, nothing is left that would activate a con. -/
theorem isPassive_runTask (id : TaskId) {t : Task} (session : t.session = 0) (w : World) :
    (w.runTask id t).1.IsPassive :=
  .of_begun ((session_runStrands id t.order t w).trans session) fun r =>
    begun_runStrands id t.order (.inl (mem_order t r)) w

/-! ### Strands are made of steps -/

/-- After a move a strand makes requests, has their answers, and waits or ends. -/
theorem goes_proceed (first : id.IsFirst) (r : Resource) (f : Following) (requests : Nat)
    (p : Progress) (w : World) : Goes (w, f) ((proceed id 0 r requests p w).2, f) := by
  -- An answer that comes at once may ask for another request, so both change on the way.
  induction requests generalizing p w with
  | zero => cases p <;> exact .refl
  | succ requests ih =>
    cases p with
    | sent ticket g =>
      unfold proceed
      dsimp only
      generalize w.server.ask r g.con g.etag = asked
      obtain ⟨reply, server⟩ := asked
      cases reply with
      | none => exact .within {}
      | some reply =>
        have called : Goes (w, f)
            ({ w with calls := ⟨r, g.con, g.etag, w.now⟩ :: w.calls, server := server }, f) :=
          .within {}
        dsimp only
        split
        · have answered := called.trans (.act r (m := .answer ticket w.now reply.outcome) rfl)
          exact answered.trans (ih _ _)
        · exact called.trans (.setAlarm first _)
    | _ => exact .refl

theorem goes_move (first : id.IsFirst) (r : Resource) {m : Move} (inactive : m.activated? = none)
    (f : Following) (w : World) : Goes (w, f) ((w.move id 0 r m).2, f) :=
  (Goes.act r inactive).trans (goes_proceed first r f requestLimit _ _)

/-- What of its activations the follower has begun when the strands for some resources have had
their turns. -/
structure Does (rs : List Resource) (t : Task) (f f' : Following) : Prop where
  con : f'.con = f.con
  less : ∀ r ∈ f'.todo, r ∈ f.todo
  others : ∀ r ∈ f.todo, r ∉ rs → r ∈ f'.todo
  done : ∀ r ∈ rs, t.Activates r → r ∉ f'.todo
  /-- Strands that activate nothing leave it alone. -/
  idle : (∀ r ∈ rs, ¬t.Activates r) → f' = f

theorem Does.of_inactive {r : Resource} {t : Task} {f : Following} (inactive : ¬t.Activates r) :
    Does [r] t f f := by
  refine ⟨rfl, fun _ mem => mem, fun _ mem _ => mem, fun r' mem activates => ?_, fun _ => rfl⟩
  rw [List.mem_singleton.1 mem] at activates
  exact absurd activates inactive

theorem goes_runStrand (first : id.IsFirst) {t : Task} {f : Following} (fits : t.Fits f)
    {r : Resource} {s : Strand} (known : t.strand? r = some s) (w : World) :
    ∃ f', Goes (w, f) ((w.runStrand id 0 r s).2, f') ∧ Does [r] t f f' := by
  have idle : (∀ m, s ≠ .fresh m) → Does [r] t f f := by
    intro begun
    refine .of_inactive ?_
    rintro ⟨con, fresh⟩
    rw [known] at fresh
    exact begun _ (Option.some.inj fresh)
  cases s with
  | fresh m =>
    rcases fits.inactive r m known with inactive | ⟨con, rfl, taken, todo⟩
    · refine ⟨f, goes_move first r inactive f w, .of_inactive ?_⟩
      rintro ⟨con, fresh⟩
      rw [known] at fresh
      cases fresh
      cases inactive
    · have goes := (Goes.activate (w := w) taken todo).trans
        (goes_proceed first r _ requestLimit (w.act 0 r (.activate con)).1 _)
      refine ⟨_, goes, rfl, ?_, ?_, ?_, ?_⟩
      · exact fun r' mem => (List.mem_filter.1 mem).1
      · intro r' mem other
        exact List.mem_filter.2 ⟨mem, by simpa using other⟩
      · intro r' mem _ left
        rw [List.mem_singleton.1 mem] at left
        simpa using (List.mem_filter.1 left).2
      · exact fun inactive => absurd ⟨con, known⟩ (inactive r (List.mem_singleton.2 rfl))
  | waiting ticket answer =>
    cases answer with
    | none => exact ⟨f, .refl, idle nofun⟩
    | some answer =>
      obtain ⟨due, o⟩ := answer
      unfold runStrand
      dsimp only
      split
      · exact ⟨f, goes_move first r rfl f w, idle nofun⟩
      · exact ⟨f, .refl, idle nofun⟩
  | joining ticket =>
    unfold runStrand
    dsimp only
    split
    · exact ⟨f, .refl, idle nofun⟩
    · exact ⟨f, .refl, idle nofun⟩
  | finished result => exact ⟨f, .refl, idle nofun⟩

/-- One strand after the other. -/
theorem Does.cons {r : Resource} {rs : List Resource} {t t' : Task} {f f₁ f' : Following}
    (here : Does [r] t f f₁) (there : Does rs t' f₁ f')
    (activates : ∀ r', t'.Activates r' ↔ r' ≠ r ∧ t.Activates r') : Does (r :: rs) t f f' := by
  refine ⟨there.con.trans here.con, fun r' mem => here.less r' (there.less r' mem), ?_, ?_, ?_⟩
  · intro r' mem other
    rw [List.mem_cons, not_or] at other
    exact there.others r' (here.others r' mem (by simpa using other.1)) other.2
  · intro r' mem begins todo
    by_cases hr : r' = r
    · exact here.done r' (List.mem_singleton.2 hr) begins (there.less r' todo)
    · have mem := (List.mem_cons.1 mem).resolve_left hr
      exact there.done r' mem ((activates r').2 ⟨hr, begins⟩) todo
  · intro inactive
    have same : f₁ = f := here.idle fun r' mem => by
      rw [List.mem_singleton.1 mem]
      exact inactive r List.mem_cons_self
    refine (there.idle fun r' mem begins => ?_).trans same
    exact inactive r' (List.mem_cons_of_mem r mem) ((activates r').1 begins).2

/-- When the strands for some resources have had their turns, the follower has begun with what they
were to do. -/
theorem goes_runStrands (first : id.IsFirst) (rs : List Resource) {t : Task} {f : Following}
    (fits : t.Fits f) (w : World) :
    ∃ f', Goes (w, f) ((runStrands id rs t w).2, f') ∧ Does rs t f f' := by
  induction rs generalizing t f w with
  | nil => exact ⟨f, .refl, rfl, fun _ mem => mem, fun _ mem _ => mem, nofun, fun _ => rfl⟩
  | cons r rs ih =>
    unfold runStrands
    cases known : t.strand? r with
    | none =>
      have inactive : ¬t.Activates r := fun ⟨con, fresh⟩ => nomatch known.symm.trans fresh
      obtain ⟨f', goes, does⟩ := ih fits w
      refine ⟨f', goes, (Does.of_inactive inactive).cons does fun r' => ?_⟩
      exact ⟨fun begins => ⟨fun hr => inactive (hr ▸ begins), begins⟩, And.right⟩
    | some s =>
      -- The first strand has its turn; what it leaves of the task fits what the follower has left.
      obtain ⟨f₁, goes₁, does₁⟩ := goes_runStrand first fits known w
      have under_way := begun_runStrand id 0 r s w
      dsimp only
      rw [fits.session]
      generalize w.runStrand id 0 r s = result at *
      obtain ⟨s₁, w₁⟩ := result
      have fits₁ : (t.setStrand r s₁).Fits f₁ := by
        refine ⟨fits.session, fun r' m fresh => ?_⟩
        obtain ⟨other, fresh⟩ := Task.fresh_of_setStrand under_way fresh
        rcases fits.inactive r' m fresh with inactive | ⟨con, hm, taken, todo⟩
        · exact .inl inactive
        · exact .inr ⟨con, hm, does₁.con.trans taken, does₁.others r' todo (by simpa using other)⟩
      obtain ⟨f', goes, does⟩ := ih fits₁ w₁
      refine ⟨f', goes₁.trans goes, does₁.cons does fun r' => ⟨?_, ?_⟩⟩
      · rintro ⟨con, fresh⟩
        obtain ⟨other, fresh⟩ := Task.fresh_of_setStrand under_way fresh
        exact ⟨other, con, fresh⟩
      · rintro ⟨other, con, fresh⟩
        exact ⟨con, by rw [Task.strand?_setStrand, if_neg other, fresh]⟩

/-- When all strands have had their turns, the follower has begun with what they were to do. -/
theorem goes_runTask (first : id.IsFirst) {t : Task} {f : Following} (fits : t.Fits f) (w : World) :
    ∃ f', Goes (w, f) ((w.runTask id t).2, f') ∧ Does t.order t f f' :=
  goes_runStrands first t.order fits w

end OfflineSchedule.Turns.World
