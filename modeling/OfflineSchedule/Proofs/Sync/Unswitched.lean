import OfflineSchedule.Proofs.Sync.Run
/-!
# As long as one con is selected

Every state that is published gets a number, so whatever is done without giving out a number leaves
the published state as it is, and announces no retries (`publishes_next`). Readers see more than
that, as it depends on the con that is selected; but as long as no con but one has been selected,
what is published is what readers see (`IsOnly.current_eq`). Then a reader who is told of every
number misses nothing but the end of retries.
-/

namespace OfflineSchedule.Sync

variable {r : Resource} {con : String}

/-! ## The numbers of published states -/

@[simp] theorem version_select (con : String) (y : Sync r) :
    (y.select con).version = y.version := by
  unfold select
  split <;> rfl

/-- Numbers grow. As long as the number stays, so does what is published, and no retry is announced
that was not announced before. -/
structure Publishes (y y' : Sync r) : Prop where
  version_le : y.version ≤ y'.version
  published : y'.version = y.version → y'.published = y.published
  retrying : y'.version = y.version → y'.isRetrying = true → y.isRetrying = true

namespace Publishes

variable {y y' y'' : Sync r}

theorem of_eq (version : y'.version = y.version) (published : y'.published = y.published)
    (retrying : y'.isRetrying = true → y.isRetrying = true) : Publishes y y' :=
  ⟨Nat.le_of_eq version.symm, fun _ => published, fun _ => retrying⟩

theorem of_lt (later : y.version < y'.version) : Publishes y y' :=
  ⟨Nat.le_of_lt later, fun same => absurd same (Nat.ne_of_gt later),
    fun same => absurd same (Nat.ne_of_gt later)⟩

theorem refl (y : Sync r) : Publishes y y := .of_eq rfl rfl id

theorem trans (h : Publishes y y') (h' : Publishes y' y'') : Publishes y y'' := by
  have before := h.version_le
  have after := h'.version_le
  refine ⟨Nat.le_trans before after, fun same => ?_, fun same timer => ?_⟩
  · exact (h'.published (by omega)).trans (h.published (by omega))
  · exact h.retrying (by omega) (h'.retrying (by omega) timer)

end Publishes

theorem publishes_begun (con : String) (y : Sync r) : Publishes y (y.begun con) :=
  .of_eq (version_select con y) (published_select con y) nofun

theorem Settled.publishes {policy : Retry.Policy} {now : Retry.Moment} {f : Flight}
    {o : Http.Outcome Json.Value} {store store' : Store} {y y' : Sync r} {reload : Reload}
    (h : Settled policy now f o store y reload store' y') : Publishes y y' := by
  cases h with
  | superseded => exact .refl y
  | @updated _ _ _ stale => cases stale <;> exact .of_lt (Nat.lt_succ_self y.version)
  | notModified => exact .of_lt (Nat.lt_succ_self y.version)
  | failed =>
    unfold fail
    split
    · exact .of_eq rfl rfl nofun
    · exact .of_lt (Nat.lt_succ_self y.version)

theorem Act.publishes {i : Incident r} {a b : Scene r} (h : Act i a b) :
    Publishes a.sync b.sync := by
  cases h with
  | @found con =>
    exact .of_lt (Nat.lt_succ_of_le (Nat.le_of_eq (version_select con a.sync).symm))
  | begun => exact publishes_begun _ a.sync
  | started => exact publishes_begun _ a.sync
  | settled _ _ _ _ settled => exact settled.publishes
  | stopped => exact .of_eq rfl rfl nofun
  | fired => exact .of_eq rfl rfl nofun
  | _ => exact .refl a.sync

theorem publishes_next (s : Scene r) (e : Event) : Publishes s.sync (s.next e).sync :=
  acts_induction (I := fun s' => Publishes s.sync s'.sync) (.refl s.sync)
    fun _ _ act h => h.trans act.publishes

/-! ## One con -/

/-- No con but one has been selected. -/
structure IsOnly (con : String) (m : Machine r) : Prop where
  selected : ∀ c, m.sync.selected = some c → c = con
  owner : ∀ c, m.sync.owner = some c → m.sync.selected = some c
  unowned : m.sync.owner = none → m.sync.published = .pending
  waits : ∀ k f, m.job? k = some (.fetching f) → m.sync.selected = some f.con

namespace IsOnly

variable {s s' : Scene r}

theorem of_new (policy : Retry.Policy) : IsOnly con ({ policy } : Machine r) :=
  ⟨nofun, nofun, fun _ => rfl, nofun⟩

/-- What is published is what readers see. -/
theorem current_eq {m : Machine r} (h : IsOnly con m) : m.sync.current = m.sync.published := by
  unfold current
  split
  · rfl
  · rename_i other
    cases owner : m.sync.owner with
    | none => exact (h.unowned owner).symm
    | some c =>
      rw [owner] at other
      exact absurd (h.owner c owner).symm other

/-- Nothing but retries is new, or the published state has got another owner, the con that is
selected. -/
theorem of_selected (h : IsOnly con s.machine) (selected : s'.sync.selected = s.sync.selected)
    (owned : s'.sync.owner = s.sync.owner ∧ s'.sync.published = s.sync.published ∨
      ∃ c, s'.sync.owner = some c ∧ s.sync.selected = some c)
    (waits : ∀ k f, s'.Waits k f → ∃ f', s.Waits k f' ∧ f'.con = f.con) :
    IsOnly con s'.machine := by
  refine ⟨fun c hc => h.selected c (selected.symm.trans hc), fun c hc => ?_, fun none => ?_, ?_⟩
  · rw [selected]
    rcases owned with ⟨owner, -⟩ | ⟨c', owner, chosen⟩
    · exact h.owner c (owner.symm.trans hc)
    · rw [owner] at hc
      cases hc
      exact chosen
  · rcases owned with ⟨owner, published⟩ | ⟨c', owner, -⟩
    · rw [published]
      exact h.unowned (owner.symm.trans none)
    · rw [owner] at none
      cases none
  · intro k f hf
    obtain ⟨f', waited, same⟩ := waits k f hf
    rw [selected, ← same]
    exact h.waits k f' waited

theorem of_found (h : IsOnly con s.machine) {value : r.Live} {etag : Option String}
    (sync : s'.sync = s.sync.found con value etag)
    (waits : ∀ k f, s'.Waits k f → s.Waits k f) : IsOnly con s'.machine := by
  have selected : s'.sync.selected = some con := by rw [sync, selected_found]
  have owner : s'.sync.owner = some con := by
    rw [sync]
    rfl
  refine ⟨fun c hc => ?_, fun c hc => ?_, fun none => ?_, fun k f hf => ?_⟩
  · rw [selected] at hc
    exact (Option.some.inj hc).symm
  · rw [selected, ← owner, hc]
  · rw [owner] at none
    cases none
  · rw [selected, h.selected _ (h.waits k f (waits k f hf))]

theorem of_begun (h : IsOnly con s.machine) {ticket : Nat} {store : Store}
    (sync : s'.sync = s.sync.begun con)
    (waits : ∀ k f, s'.Waits k f →
      k = ticket ∧ f = s.sync.request con store ∨ k ≠ ticket ∧ s.Waits k f) :
    IsOnly con s'.machine := by
  have selected : s'.sync.selected = some con := by rw [sync, selected_begun]
  have owner : s'.sync.owner = s.sync.owner := by rw [sync, owner_begun]
  refine ⟨fun c hc => ?_, fun c hc => ?_, fun none => ?_, fun k f hf => ?_⟩
  · rw [selected] at hc
    exact (Option.some.inj hc).symm
  · rw [selected, h.selected c (h.owner c (owner.symm.trans hc))]
  · have published : s'.sync.published = s.sync.published := by rw [sync, published_begun]
    exact published.trans (h.unowned (owner.symm.trans none))
  · rw [selected]
    rcases waits k f hf with ⟨-, rfl⟩ | ⟨-, waited⟩
    · rfl
    · rw [h.selected _ (h.waits k f waited)]

theorem of_settled (h : IsOnly con s.machine) {policy : Retry.Policy} {now : Retry.Moment}
    {ticket : Nat} {f : Flight} {o : Http.Outcome Json.Value} {reload : Reload}
    (waited : s.Waits ticket f)
    (settled : Settled policy now f o s.store s.sync reload s'.store s'.sync)
    (waits : ∀ k g, s'.Waits k g → k ≠ ticket ∧ s.Waits k g) : IsOnly con s'.machine := by
  have chosen := h.waits ticket f waited
  refine h.of_selected settled.keeps.2 ?_ fun k g hg => ⟨g, (waits k g hg).2, rfl⟩
  generalize s'.store = store', s'.sync = y at settled
  cases settled with
  | superseded => exact .inl ⟨rfl, rfl⟩
  | @updated _ _ _ stale => cases stale <;> exact .inr ⟨f.con, rfl, chosen⟩
  | notModified => exact .inr ⟨f.con, rfl, chosen⟩
  | failed =>
    right
    unfold fail
    split <;> exact ⟨f.con, rfl, chosen⟩

end IsOnly

/-- An event that activates no other con leaves it at the one con. -/
theorem IsOnly.next {s : Scene r} (h : IsOnly con s.machine) {e : Event}
    (only : ∀ c, e.activated? = some c → c = con) : IsOnly con (s.next e).machine := by
  -- Parts that select a con begin where the event begins, or select what was selected.
  have parts : (∀ c, (s.next e).sync.selected = some c → c = con) →
      IsOnly con (s.next e).machine := by
    refine parts_induction
      (I := fun s' => (∀ c, s'.sync.selected = some c → c = con) → IsOnly con s'.machine)
      (fun _ => h) fun a b p ih only => ?_
    cases p with
    | rest _ sync waits =>
      obtain ⟨retry, sync⟩ := sync
      have same : b.sync.selected = a.sync.selected := by rw [sync]
      have before := ih fun c hc => only c (same.trans hc)
      refine before.of_selected same (.inl ?_) fun k f hf => ⟨f, waits k f hf, rfl⟩
      rw [sync]
      exact ⟨rfl, rfl⟩
    | @found _ con' _ _ first _ _ _ sync waits =>
      have chosen : con' = con := only con' (by rw [sync, selected_found])
      subst first chosen
      exact h.of_found sync waits
    | @begun _ con' _ _ why _ sync waits =>
      have chosen : con' = con := only con' (by rw [sync, selected_begun])
      subst chosen
      rcases why with selected | ⟨first, -⟩
      · refine (ih fun c hc => ?_).of_begun sync waits
        rw [selected] at hc
        exact (Option.some.inj hc).symm
      · subst first
        exact h.of_begun sync waits
    | settled _ _ waited _ settled waits =>
      exact (ih fun c hc => only c (settled.keeps.2.trans hc)).of_settled waited settled waits
    | @again _ ticket _ _ f _ _ waited _ _ _ _ sync waits =>
      have before := ih fun c hc => only c (by rw [sync]; exact hc)
      refine before.of_selected (by rw [sync]) (.inl (by rw [sync]; exact ⟨rfl, rfl⟩)) ?_
      intro k g hg
      rcases waits k g hg with ⟨rfl, rfl⟩ | ⟨-, hg⟩
      · exact ⟨f, waited, rfl⟩
      · exact ⟨g, hg, rfl⟩
    | cleared _ machine =>
      have before := ih fun c hc => only c (by rw [Scene.sync, machine]; exact hc)
      refine before.of_selected (by rw [Scene.sync, machine])
        (.inl (by rw [Scene.sync, machine]; exact ⟨rfl, rfl⟩)) fun k f hf => ⟨f, ?_, rfl⟩
      rwa [Scene.Waits, machine] at hf
    | interfered =>
      exact (ih only).of_selected rfl (.inl ⟨rfl, rfl⟩) fun k f hf => ⟨f, hf, rfl⟩
  refine parts fun c hc => ?_
  rw [selected_next] at hc
  rcases Option.or_eq_some_iff.1 hc with activated | ⟨-, selected⟩
  · exact only c activated
  · exact h.selected c selected

/-- What is left as it is by an event that activates no other con, unless it gives out a number. -/
theorem IsOnly.current_next {s : Scene r} (h : IsOnly con s.machine) {e : Event}
    (only : ∀ c, e.activated? = some c → c = con)
    (same : (s.next e).sync.version = s.sync.version) :
    (s.next e).sync.current = s.sync.current := by
  rw [(h.next only).current_eq, h.current_eq, (publishes_next s e).published same]

end OfflineSchedule.Sync
