import OfflineSchedule.Proofs.Cache.Usable
import OfflineSchedule.Proofs.Sync.Run
/-!
# Isolation of cons

What readers see belongs to the con that is selected. A value on display was decoded from an answer
to a request for that con, or from an envelope that was kept for it; a failure on display is the end
of a reload for it. The invariant (`Sourced`) says so of whatever is published, together with the
con that owns it: readers see a published state only while its owner is selected, so nothing has to
be known about the con that is selected at other times.
-/

namespace OfflineSchedule.Sync

open Http (Outcome)
open Json (Value)

variable {r : Resource} {Allowed : Scene r → Event → Prop} {start s : Scene r}
  {past : List (Incident r)}

/-! ## Where a published state comes from -/

/-- The answer `o` to the request `f` has ended a reload. -/
def Answered (past : List (Incident r)) (f : Flight) (o : Outcome Value) (reload : Reload) : Prop :=
  ∃ i ∈ past, ∃ ticket now faults, i.event = .move (.answer ticket now o) faults ∧
    i.before.Waits ticket f ∧ i.progress = .ended reload

/-- The value was decoded from something that belongs to the con. -/
inductive Source (past : List (Incident r)) (con : String) (value : r.Live) : Prop where
  /-- A payload that answered a request for the con. -/
  | fetched {f : Flight} {payload : Value} {etag : Option String} {stale : Bool}
      (answered : Answered past f (.success payload etag stale) (.updated stale))
      (con_eq : f.con = con) (decoded : r.liveOfValue payload = .ok value)
  /-- An envelope in the store that names the con. -/
  | cached {i : Incident r} {e : Envelope r.Stored} (mem : i ∈ past)
      (kept : Cache.get r.storedOfTree i.before.store r.name = some e) (con_eq : e.con = con)
      (decoded : r.ofStored e.value = .ok value)

/-- A reload for the con has ended with this failure. -/
def Failed (past : List (Incident r)) (con : String) (code : Nat) : Prop :=
  ∃ f o, f.con = con ∧ Answered past f o (.failed code)

/-- The published state has an owner that it comes from. -/
inductive Sourced (past : List (Incident r)) (y : Sync r) : Prop where
  | pending (published : y.published = .pending) (owner : y.owner = none)
  | success {con : String} {value : r.Live} {etag : Option String}
      (published : y.published = .success value etag) (owner : y.owner = some con)
      (shown : y.shown = some con) (source : Source past con value)
  | error {con : String} {code : Nat} (published : y.published = .error code)
      (owner : y.owner = some con) (failed : Failed past con code)

theorem Answered.of_mem {i : Incident r} {ticket : Nat} {now : Retry.Moment} {o : Outcome Value}
    {faults : List StoreOperation} {f : Flight} {reload : Reload} (mem : i ∈ past)
    (event : i.event = .move (.answer ticket now o) faults) (waited : i.before.Waits ticket f)
    (progress : i.progress = .ended reload) : Answered past f o reload :=
  ⟨i, mem, ticket, now, faults, event, waited, progress⟩

theorem Answered.mono {f : Flight} {o : Outcome Value} {reload : Reload} (i : Incident r)
    (h : Answered past f o reload) : Answered (i :: past) f o reload := by
  obtain ⟨j, hj, h⟩ := h
  exact ⟨j, List.mem_cons_of_mem i hj, h⟩

theorem Source.mono {con : String} {value : r.Live} (i : Incident r) (h : Source past con value) :
    Source (i :: past) con value := by
  cases h with
  | fetched answered con_eq decoded => exact .fetched (answered.mono i) con_eq decoded
  | cached mem kept con_eq decoded =>
    exact .cached (List.mem_cons_of_mem i mem) kept con_eq decoded

theorem Sourced.mono {y : Sync r} (i : Incident r) (h : Sourced past y) :
    Sourced (i :: past) y := by
  cases h with
  | pending published owner => exact .pending published owner
  | success published owner shown source => exact .success published owner shown (source.mono i)
  | error published owner failed =>
    obtain ⟨f, o, hf, ha⟩ := failed
    exact .error published owner ⟨f, o, hf, ha.mono i⟩

/-- Nothing but the published state, its owner and the con on display counts. -/
theorem Sourced.congr {y y' : Sync r} (h : Sourced past y) (published : y'.published = y.published)
    (owner : y'.owner = y.owner) (shown : y'.shown = y.shown) : Sourced past y' := by
  cases h with
  | pending hp ho => exact .pending (published.trans hp) (owner.trans ho)
  | success hp ho hs source =>
    exact .success (published.trans hp) (owner.trans ho) (shown.trans hs) source
  | error hp ho failed => exact .error (published.trans hp) (owner.trans ho) failed

theorem Sourced.display {con : String} {value : r.Live} (h : Source past con value)
    (etag : Option String) (y : Sync r) : Sourced past (y.display con value etag) :=
  .success rfl rfl rfl h

theorem Source.of_usable {i : Incident r} {con : String} {value : r.Live} {etag : Option String}
    (mem : i ∈ past) (h : Cache.usable? r i.before.store con = some (value, etag)) :
    Source past con value := by
  obtain ⟨e, hk, hc, -, hd⟩ := Cache.exists_envelope_of_usable? h
  exact .cached mem hk hc hd

/-- A failure keeps a value of the same con, and is published otherwise. -/
theorem Sourced.fail {y : Sync r} (h : Sourced past y) {f : Flight} {code : Nat}
    (failed : Failed past f.con code) : Sourced past (y.fail f code) := by
  unfold Sync.fail
  split
  · rename_i hs
    simp only [Bool.and_eq_true, decide_eq_true_eq] at hs
    cases h with
    | pending published => simp [published, Published.isSuccess] at hs
    | success published owner shown source =>
      have hc : some f.con = some _ := hs.2.symm.trans shown
      exact .success published hc shown source
    | error published => simp [published, Published.isSuccess] at hs
  · exact .error rfl rfl failed

theorem Sourced.settled {policy : Retry.Policy} {now : Retry.Moment} {f : Flight}
    {o : Outcome Value} {store store' : Store} {y y' : Sync r} {reload : Reload}
    (h : Sourced past y) (answered : Answered past f o reload)
    (usable : ∀ {value etag}, Cache.usable? r store f.con = some (value, etag) →
      Source past f.con value)
    (settled : Settled policy now f o store y reload store' y') : Sourced past y' := by
  cases settled with
  | superseded => exact h
  | @updated payload value etag stale answer decoded =>
    subst answer
    have hd := Sourced.display (.fetched answered rfl decoded) etag y
    cases stale <;> exact hd.congr rfl rfl rfl
  | @notModified value etag _ found =>
    exact (Sourced.display (usable found) etag y).congr rfl rfl rfl
  | failed => exact h.fail ⟨f, o, rfl, answered⟩

theorem Sourced.part {i : Incident r} {s s' : Scene r} (h : Sourced (i :: past) s.sync)
    (p : Part i s s') : Sourced (i :: past) s'.sync := by
  cases p with
  | rest _ sync =>
    obtain ⟨retry, sync⟩ := sync
    exact h.congr (by rw [sync]) (by rw [sync]) (by rw [sync])
  | found first _ usable _ sync =>
    subst first
    rw [sync]
    exact .success rfl rfl rfl (.of_usable List.mem_cons_self usable)
  | begun _ _ _ sync =>
    rw [sync]
    exact h.congr (published_select _ _) (owner_select _ _) (shown_select _ _)
  | settled event first waited progress settled =>
    subst first
    exact h.settled (.of_mem List.mem_cons_self event waited progress)
      (.of_usable List.mem_cons_self) settled
  | again _ _ _ _ _ _ _ sync => rwa [sync]
  | cleared _ machine => rwa [Scene.sync, machine]
  | interfered => exact h

theorem Run.sourced {policy : Retry.Policy} {store : Store}
    (run : Run Allowed (.new policy store) past s) : Sourced past s.sync :=
  run.invariant (fun past s => Sourced past s.sync) (.pending rfl rfl)
    (fun _ i _ h => h.mono i) fun _ _ _ _ _ _ h p => h.part p

/-! ## Readers -/

/-- Readers see a published state only while its owner is selected. -/
theorem Sourced.current {y : Sync r} (h : Sourced past y) :
    y.current = .pending ∨
    (∃ con value etag, y.selected = some con ∧ y.current = .success value etag ∧
      Source past con value) ∨
    ∃ con code, y.selected = some con ∧ y.current = .error code ∧ Failed past con code := by
  unfold Sync.current
  by_cases ho : y.owner = y.selected
  · rw [if_pos ho]
    cases h with
    | pending published => exact .inl published
    | success published owner _ source =>
      exact .inr (.inl ⟨_, _, _, ho.symm.trans owner, published, source⟩)
    | error published owner failed =>
      exact .inr (.inr ⟨_, _, ho.symm.trans owner, published, failed⟩)
  · exact .inl (if_neg ho)

/-- **Isolation.** Whatever has happened, a value that readers see was decoded from an answer to a
request for the selected con or from an envelope that was kept for it, a failure that they see is
the end of a reload for it, and there is nothing else to see. Status, value and the verdict that
there is no such con fit together. -/
theorem readers_see_selected_con {policy : Retry.Policy} {store : Store}
    (run : Run Allowed (.new policy store) past s) :
    (s.sync.status = .success → ∃ con value, s.sync.selected = some con ∧
      (∀ d, s.sync.dataOr d = value) ∧ s.sync.isNotFound = false ∧ Source past con value) ∧
    (s.sync.status = .error ∨ s.sync.isNotFound = true → ∃ con code,
      s.sync.selected = some con ∧ s.sync.status = .error ∧
      (s.sync.isNotFound = true ↔ code = 404) ∧ (∀ d, s.sync.dataOr d = d) ∧
      Failed past con code) ∧
    (s.sync.status = .pending → s.sync.isNotFound = false ∧ ∀ d, s.sync.dataOr d = d) := by
  unfold status isNotFound dataOr
  rcases run.sourced.current with hc | ⟨con, value, etag, hs, hc, source⟩ |
    ⟨con, code, hs, hc, failed⟩
  · rw [hc]
    refine ⟨?_, ?_, fun _ => ⟨rfl, fun _ => rfl⟩⟩
    · rintro ⟨⟩
    · rintro (h | h) <;> cases h
  · rw [hc]
    refine ⟨fun _ => ⟨con, value, hs, fun _ => rfl, rfl, source⟩, ?_, ?_⟩
    · rintro (h | h) <;> cases h
    · rintro ⟨⟩
  · rw [hc]
    refine ⟨?_, fun _ => ⟨con, code, hs, rfl, by simp [Published.isNotFound], fun _ => rfl, failed⟩,
      ?_⟩
    · rintro ⟨⟩
    · rintro ⟨⟩

/-- A con that does not exist: the verdict is the end of a reload for it. -/
theorem not_found_of_selected_con :
    let start : Scene .pages := .new .standard { kind := .database }
    let s := start.afterAll [.move (.activate "b") [], .move (.answer 0 0 (.error 404)) []]
    s.sync.isNotFound = true ∧ ∃ past, Run (fun _ _ => True) start past s ∧
      ∃ con, s.sync.selected = some con ∧ Failed past con 404 := by
  intro start s
  have hn : s.sync.isNotFound = true := by decide
  obtain ⟨past, run⟩ : ∃ past, Run (fun _ _ => True) start past s :=
    Run.nil.afterAll _ ⟨trivial, trivial, trivial⟩
  obtain ⟨con, code, hs, -, hc, -, hf⟩ := (readers_see_selected_con run).2.1 (.inr hn)
  exact ⟨hn, past, run, con, hs, hc.1 hn ▸ hf⟩

end OfflineSchedule.Sync
