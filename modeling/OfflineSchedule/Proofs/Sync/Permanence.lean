import OfflineSchedule.Proofs.Sync.Offline
/-!
# What is on display stays there

Once a value of the selected con is on display, its status is success until another con is
activated, whatever the server answers and whatever becomes of the store. Only a reload that ends
with a value changes what is displayed; a failure leaves it as it is.

A failure decides by the con of the value on display. That this is the con of the request that has
failed follows from two invariants: the latest request is for the selected con (`Orderly`), and the
value on display is one of the con that owns it (`Sourced`).
-/

namespace OfflineSchedule.Sync

variable {r : Resource} {Allowed : Scene r → Event → Prop} {s s' : Scene r}
  {past : List (Incident r)} {con : String}

/-- A reload that ends so puts a value on display. -/
def Reload.hasValue : Reload → Bool
  | .updated _ | .notModified => true
  | _ => false

/-- The event activates no other con than this one. -/
def Event.StaysWith (con : String) (e : Event) : Prop := ∀ other ∈ e.activated?, other = con

/-- No reload ends with a value. -/
def Progress.Bare (p : Progress) : Prop := ∀ reload, p = .ended reload → reload.hasValue = false

/-! ## Steps -/

theorem selected_of_staysWith {e : Event} (selected : s.sync.selected = some con)
    (stays : e.StaysWith con) : (s.next e).sync.selected = some con := by
  rw [selected_next, selected]
  cases he : e.activated? with
  | none => rfl
  | some other => rw [stays other he, Option.some_or]

/-- While the con is selected, a value of it is on display; if the incident ends no reload with a
value, it is the value that was there before. -/
structure Lasting (i : Incident r) (con : String) (y : Sync r) : Prop where
  success : y.status = .success
  published : i.progress.Bare → y.published = i.before.sync.published

theorem Lasting.congr {i : Incident r} {y y' : Sync r} (h : Lasting i con y)
    (selected : y'.selected = y.selected) (owner : y'.owner = y.owner)
    (published : y'.published = y.published) : Lasting i con y' := by
  refine ⟨?_, fun bare => published.trans (h.published bare)⟩
  rw [status_eq_success, owner, selected, published]
  exact status_eq_success.1 h.success

theorem Lasting.settled {i : Incident r} {policy : Retry.Policy} {now : Retry.Moment} {f : Flight}
    {o : Http.Outcome Json.Value} {store store' : Store} {y y' : Sync r} {reload : Reload}
    (h : Lasting i con y) (sourced : Sourced past y)
    (selected_of_latest : y.isLatest f = true → y.selected = some f.con)
    (progress : i.progress = .ended reload)
    (settled : Settled policy now f o store y reload store' y') : Lasting i con y' := by
  cases settled with
  | superseded => exact h
  | @updated _ _ _ stale _ _ latest =>
    refine ⟨?_, fun bare => nomatch bare _ progress⟩
    cases stale <;> exact status_display (selected_of_latest latest) rfl rfl
  | notModified _ _ latest =>
    exact ⟨status_display (selected_of_latest latest) rfl rfl, fun bare => nomatch bare _ progress⟩
  | @failed code latest =>
    have same := fail_of_success code sourced (selected_of_latest latest) h.success
    refine ⟨status_fail code sourced (selected_of_latest latest) h.success, fun bare => ?_⟩
    rw [same]
    exact h.published bare

/-- A value of the con stays on display during an incident, unless another con is selected. -/
theorem Lasting.part {i : Incident r} (before : i.before.sync.selected = some con)
    (h : s.sync.selected = some con → Lasting i con s.sync) (orderly : Orderly s)
    (sourced : Sourced past s.sync) (p : Part i s s') (selected : s'.sync.selected = some con) :
    Lasting i con s'.sync := by
  cases p with
  | rest _ sync =>
    obtain ⟨retry, sync⟩ := sync
    rw [sync] at selected ⊢
    exact (h selected).congr rfl rfl rfl
  | @found _ con' _ _ first hidden _ _ sync =>
    -- What is on display is not looked for in the cache.
    rw [sync] at selected
    obtain rfl : con' = con := Option.some.inj ((selected_select con' s.sync).symm.trans selected)
    subst first
    obtain ⟨owner, published⟩ := status_eq_success.1 (h before).success
    rw [isShowing_iff.2 ⟨before, owner.trans before, published⟩] at hidden
    cases hidden
  | @begun _ con' _ _ why _ sync =>
    rw [sync] at selected ⊢
    obtain rfl : con' = con := Option.some.inj ((selected_select con' s.sync).symm.trans selected)
    have was : s.sync.selected = some con' := by
      rcases why with was | ⟨first, -⟩
      · exact was
      · rw [first, before]
    exact (h was).congr (selected.trans was.symm) (owner_select _ _) (published_select _ _)
  | @settled _ ticket _ _ _ f _ _ _ waited progress settled =>
    have was : s.sync.selected = some con := settled.keeps.2 ▸ selected
    exact (h was).settled sourced
      (fun latest => orderly.selected_of_latest ticket f waited (isLatest_iff.1 latest)) progress
      settled
  | again _ _ _ _ _ _ _ sync =>
    rw [sync] at selected ⊢
    exact h selected
  | cleared _ machine =>
    rw [Scene.sync, machine] at selected ⊢
    exact h selected
  | interfered => exact h selected

/-! ## Runs -/

/-- A value of the con, which is selected, is on display. -/
structure Displays (con : String) (s : Scene r) : Prop where
  orderly : Orderly s
  sourced : ∃ past, Sourced past s.sync
  selected : s.sync.selected = some con
  success : s.sync.status = .success

theorem Displays.next {e : Event} (h : Displays con s) (stays : e.StaysWith con) :
    Displays con (s.next e) ∧ Lasting ⟨s, e⟩ con (s.next e).sync := by
  obtain ⟨past, sourced⟩ := h.sourced
  obtain ⟨orderly, sourced, lasting⟩ : Orderly (s.next e) ∧
      Sourced (⟨s, e⟩ :: past) (s.next e).sync ∧
      ((s.next e).sync.selected = some con → Lasting ⟨s, e⟩ con (s.next e).sync) := by
    refine parts_induction (I := fun s' => Orderly s' ∧ Sourced (⟨s, e⟩ :: past) s'.sync ∧
      (s'.sync.selected = some con → Lasting ⟨s, e⟩ con s'.sync)) ?_ fun a b p ih => ?_
    · exact ⟨h.orderly, sourced.mono _, fun _ => ⟨h.success, fun _ => rfl⟩⟩
    · obtain ⟨orderly, sourced, lasting⟩ := ih
      exact ⟨orderly.part p, sourced.part p, Lasting.part h.selected lasting orderly sourced p⟩
  have selected := selected_of_staysWith h.selected stays
  exact ⟨⟨orderly, ⟨_, sourced⟩, selected, (lasting selected).success⟩, lasting selected⟩

theorem Displays.afterAll {es : List Event} (h : Displays con s)
    (stay : ∀ e ∈ es, e.StaysWith con) : Displays con (s.afterAll es) := by
  induction es generalizing s with
  | nil => exact h
  | cons e es ih =>
    have next := (h.next (stay e List.mem_cons_self)).1
    exact ih next fun e' he => stay e' (List.mem_cons_of_mem e he)

/-- A reload that was begun ends by an answer, which activates nothing. -/
theorem staysWith_of_ended {e : Event} {reload : Reload} (ended : s.progress e = .ended reload)
    (begun : reload ≠ .noInstance) : e.StaysWith con := by
  obtain ⟨ticket, now, o, faults, f, rfl, -⟩ := exists_answer_of_ended ended begun
  intro other h
  cases h

/-- **Permanence.** When a run has brought a value of the selected con on display, its status is
success after whatever happens next, as long as no other con is activated. What is published then
changes only when a reload ends with a value; when a reload fails, value and etag stay. -/
theorem success_stays {policy : Retry.Policy} {store : Store}
    (run : Run Allowed (.new policy store) past s) (selected : s.sync.selected = some con)
    (success : s.sync.status = .success) {es : List Event} (stay : ∀ e ∈ es, e.StaysWith con) :
    let s' := s.afterAll es
    s'.sync.selected = some con ∧ s'.sync.status = .success ∧
      (∀ e, e.StaysWith con → (s'.progress e).Bare →
        (s'.next e).sync.published = s'.sync.published) ∧
      ∀ e code, s'.progress e = .ended (.failed code) →
        (s'.next e).sync.published = s'.sync.published := by
  intro s'
  have start : Displays con s := ⟨run.orderly, ⟨past, run.sourced⟩, selected, success⟩
  have h : Displays con s' := start.afterAll stay
  have same : ∀ e, e.StaysWith con → (s'.progress e).Bare →
      (s'.next e).sync.published = s'.sync.published :=
    fun e stays bare => (h.next stays).2.published bare
  refine ⟨h.selected, h.success, same, fun e code failed => ?_⟩
  refine same e (staysWith_of_ended failed (by nofun)) fun reload ended => ?_
  rw [failed] at ended
  cases ended
  rfl

/-- A value that was kept stays when the record of it is removed and its revalidation fails. -/
theorem success_stays_without_record :
    let start : Scene .pages := .new .standard { kind := .database }
    let s := start.afterAll
      [.move (.activate "a") [], .move (.answer 0 0 (.success (.array []) (some "v1") false)) []]
    let s' := s.afterAll [.move .reload [], .move .clear []]
    let e := Event.move (.answer 1 0 (.error 500)) []
    (∃ past, Run (fun _ _ => True) start past s) ∧ s.sync.selected = some "a" ∧
      s.sync.status = .success ∧ s'.sync.status = .success ∧
      s'.progress e = .ended (.failed 500) ∧ (s'.next e).sync.published = s'.sync.published := by
  intro start s s' e
  obtain ⟨past, run⟩ : ∃ past, Run (fun _ _ => True) start past s :=
    Run.nil.afterAll _ ⟨trivial, trivial, trivial⟩
  have selected : s.sync.selected = some "a" := by decide
  have success : s.sync.status = .success := by decide
  have failed : s'.progress e = .ended (.failed 500) := by decide
  have stay : ∀ e ∈ [Event.move .reload [], .move .clear []], e.StaysWith "a" := by
    simp [Event.StaysWith, Event.activated?, Move.activated?]
  obtain ⟨-, success', -, same⟩ := success_stays run selected success stay
  exact ⟨⟨past, run⟩, selected, success, success', failed, same e 500 failed⟩

end OfflineSchedule.Sync
