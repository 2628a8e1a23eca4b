import OfflineSchedule.Cache.Usable
/-!
# What operations of the cache do to the record of a resource

A resource has one record in the store. To keep an envelope replaces it or leaves the store as it
is, to drop it removes it or leaves the store as it is, and what is usable depends on nothing else.
-/

namespace OfflineSchedule

theorem Store.set_cases {s s' : Store} {key value : String} (h : s.set key value = .ok s') :
    s' = s ∨ s' = { s with records := s.records.insert key value } := by
  unfold Store.set at h
  split at h
  · cases h
  · split at h
    · exact .inl (Except.ok.inj h).symm
    · cases hq : s.checkQuota key value with
      | error e => simp [hq, Except.map] at h
      | ok u =>
        simp only [hq, Except.map, Except.ok.injEq] at h
        exact .inr h.symm

/-- Unless the store keeps nothing, a text that was set is there. -/
theorem Store.find?_of_set {s s' : Store} {key value : String} (h : s.set key value = .ok s')
    (kind : s.kind ≠ .disabled) : s'.records.find? key = some value := by
  unfold Store.set at h
  rw [if_neg kind] at h
  split at h
  · cases h
  · cases hq : s.checkQuota key value with
    | error e => simp [hq, Except.map] at h
    | ok u =>
      simp only [hq, Except.map, Except.ok.injEq] at h
      rw [← h]
      exact Records.find?_insert_self key value s.records

namespace Cache

variable {r : Resource} {s s' : Store} {con text : String}

/-- The text of the record of a resource, whether or not it can be got at the moment. -/
def record? (r : Resource) (s : Store) : Option String := s.records.find? (recordKey r.name)

/-- The text that keeps a value of a con. -/
def recordText (r : Resource) (con : String) (value : r.Live) (etag : Option String) : String :=
  ((⟨⟨con, etag⟩, r.toStored value⟩ : Envelope r.Stored).toValue r.storedToValue).render

/-! ## Reading -/

theorem text?_of_readable (readable : .get ∉ s.failing) : text? s r.name = record? r s := by
  simp [text?, Store.get, readable, record?]

theorem record?_of_text? (h : text? s r.name = some text) : record? r s = some text := by
  unfold text? Store.get at h
  split at h
  · rename_i hg
    split at hg
    · cases hg
    · exact (Except.ok.inj hg).trans h
  · cases h

theorem text?_of_record?_none (h : record? r s = none) : text? s r.name = none := by
  cases ht : text? s r.name with
  | none => rfl
  | some text => exact absurd (record?_of_text? ht) (by simp [h])

/-- Only the text of the record counts. -/
theorem usable?_congr (h : text? s' r.name = text? s r.name) (con : String) :
    usable? r s' con = usable? r s con := by
  simp only [usable?, get, h]

theorem usable?_of_record?_none (h : record? r s = none) (con : String) :
    usable? r s con = none := by
  simp [usable?, get, text?_of_record?_none h]

theorem etag?_of_record?_none (h : record? r s = none) (con : String) : etag? r s con = none := by
  simp [etag?, header, text?_of_record?_none h]

/-- A usable value belongs to an envelope of its con. -/
theorem exists_envelope_of_usable? {value : r.Live} {etag : Option String}
    (h : usable? r s con = some (value, etag)) :
    ∃ e, get r.storedOfTree s r.name = some e ∧ e.con = con ∧ e.etag = etag ∧
      r.ofStored e.value = .ok value := by
  unfold usable? at h
  cases hg : get r.storedOfTree s r.name with
  | none => simp [hg] at h
  | some e =>
    simp only [hg, Envelope.isFor, decide_eq_true_eq] at h
    split at h
    · rename_i hc
      split at h
      · rename_i live hd
        obtain ⟨rfl, rfl⟩ := Prod.mk.inj (Option.some.inj h)
        exact ⟨e, rfl, hc, rfl, hd⟩
      · cases h
    · cases h

/-- An envelope that was got is what the text of the record reads as. -/
theorem exists_record_of_get {α : Type} {read : Json.Tree → Option α} {e : Envelope α}
    (h : get read s r.name = some e) : ∃ text, .get ∉ s.failing ∧ record? r s = some text ∧
      (Json.Tree.ofText text).bind (Envelope.ofTree read) = some e := by
  unfold get at h
  cases ht : text? s r.name with
  | none => simp [ht] at h
  | some text =>
    refine ⟨text, fun failing => ?_, record?_of_text? ht, by simpa [ht] using h⟩
    simp [text?, Store.get, failing] at ht

/-- An envelope that can be read, is for the con, and holds a value that decodes is usable. -/
theorem usable?_of_record? {e : Envelope r.Stored} {value : r.Live} (readable : .get ∉ s.failing)
    (kept : record? r s = some text)
    (read : (Json.Tree.ofText text).bind (Envelope.ofTree r.storedOfTree) = some e)
    (decoded : r.ofStored e.value = .ok value) : usable? r s e.con = some (value, e.etag) := by
  have got : get r.storedOfTree s r.name = some e := by
    rw [get, text?_of_readable readable, kept]
    exact read
  simp [usable?, got, Envelope.isFor, decoded]

/-- The store has this value for the con: the record can be read, as an envelope for the con, and
the value in it decodes. -/
def Holds (r : Resource) (s : Store) (con : String) (value : r.Live) (etag : Option String) :
    Prop :=
  ∃ text e, .get ∉ s.failing ∧ record? r s = some text ∧
    (Json.Tree.ofText text).bind (Envelope.ofTree r.storedOfTree) = some e ∧ e.con = con ∧
    e.etag = etag ∧ r.ofStored e.value = .ok value

theorem usable?_eq_some_iff {value : r.Live} {etag : Option String} :
    usable? r s con = some (value, etag) ↔ Holds r s con value etag := by
  constructor
  · intro usable
    obtain ⟨e, got, con_eq, etag_eq, decoded⟩ := exists_envelope_of_usable? usable
    obtain ⟨text, readable, kept, read⟩ := exists_record_of_get got
    exact ⟨text, e, readable, kept, read, con_eq, etag_eq, decoded⟩
  · rintro ⟨text, e, readable, kept, read, rfl, rfl, decoded⟩
    exact usable?_of_record? readable kept read decoded

/-! ## Keeping and dropping -/

/-- A value reaches the store or leaves it as it is. -/
theorem keep_cases (r : Resource) (s : Store) (con : String) (value : r.Live)
    (etag : Option String) :
    keep r s con value etag = s ∨ keep r s con value etag =
      { s with records := s.records.insert (recordKey r.name) (recordText r con value etag) } := by
  unfold keep put
  split
  · rename_i s' h
    exact Store.set_cases h
  · exact .inl rfl

theorem record?_keep (r : Resource) (s : Store) (con : String) (value : r.Live)
    (etag : Option String) :
    record? r (keep r s con value etag) = record? r s ∨
      record? r (keep r s con value etag) = some (recordText r con value etag) := by
  rcases keep_cases r s con value etag with h | h
  · exact .inl (by rw [h])
  · exact .inr (by rw [h]; exact Records.find?_insert_self _ _ _)

theorem failing_keep (r : Resource) (s : Store) (con : String) (value : r.Live)
    (etag : Option String) : (keep r s con value etag).failing = s.failing := by
  rcases keep_cases r s con value etag with h | h <;> rw [h]

theorem kind_keep (r : Resource) (s : Store) (con : String) (value : r.Live)
    (etag : Option String) : (keep r s con value etag).kind = s.kind := by
  rcases keep_cases r s con value etag with h | h <;> rw [h]

/-- The record is removed, or the store stays as it is. -/
theorem drop_cases (r : Resource) (s : Store) :
    drop r s = s ∨ drop r s = { s with records := s.records.erase (recordKey r.name) } := by
  unfold drop remove Store.remove
  by_cases h : .remove ∈ s.failing <;> simp [h]

theorem record?_drop (r : Resource) (s : Store) :
    record? r (drop r s) = record? r s ∨ record? r (drop r s) = none := by
  rcases drop_cases r s with h | h
  · exact .inl (by rw [h])
  · exact .inr (by rw [h]; exact Records.find?_erase_self _ _)

theorem failing_drop (r : Resource) (s : Store) : (drop r s).failing = s.failing := by
  rcases drop_cases r s with h | h <;> rw [h]

theorem kind_drop (r : Resource) (s : Store) : (drop r s).kind = s.kind := by
  rcases drop_cases r s with h | h <;> rw [h]

theorem record?_drop_of_removable (h : .remove ∉ s.failing) : record? r (drop r s) = none := by
  unfold drop remove Store.remove
  rw [if_neg h]
  exact Records.find?_erase_self _ _

/-- What is usable after a removal was usable before. -/
theorem usable?_of_drop (h : (usable? r (drop r s) con).isSome) : (usable? r s con).isSome := by
  rcases drop_cases r s with hd | hd
  · rwa [hd] at h
  · have absent : record? r (drop r s) = none := by
      rw [hd]
      exact Records.find?_erase_self _ _
    simp [usable?_of_record?_none absent] at h

/-- What cannot be used is not missed. -/
theorem usable?_drop_of_none (h : usable? r s con = none) : usable? r (drop r s) con = none := by
  cases hd : usable? r (drop r s) con with
  | none => rfl
  | some p =>
    have usable := usable?_of_drop (Option.isSome_of_eq_some hd)
    simp [h] at usable

/-! ## Whether an envelope reaches the store -/

section

variable {value : r.Live} {etag : Option String}

/-- The value can be kept: its envelope reaches the store. -/
def reaches (r : Resource) (s : Store) (con : String) (value : r.Live) (etag : Option String) :
    Bool :=
  (put r.storedToValue s r.name ⟨⟨con, etag⟩, r.toStored value⟩).1

theorem keep_of_not_reaches (h : reaches r s con value etag = false) :
    keep r s con value etag = s := by
  unfold reaches put at h
  unfold keep put
  split at h
  · cases h
  · rfl

theorem keep_of_disabled (kind : s.kind = .disabled) : keep r s con value etag = s := by
  unfold keep put Store.set
  rw [if_pos kind]
  split
  · rename_i s' h
    split at h
    · cases h
    · exact (Except.ok.inj h).symm
  · rfl

theorem record?_keep_of_reaches (h : reaches r s con value etag = true)
    (kind : s.kind ≠ .disabled) :
    record? r (keep r s con value etag) = some (recordText r con value etag) := by
  unfold reaches put at h
  unfold keep put
  split at h
  · rename_i hs
    exact Store.find?_of_set hs kind
  · cases h

end

/-! ## Other resources -/

theorem recordKey_ne {r other : Resource} (h : other ≠ r) :
    recordKey other.name ≠ recordKey r.name := by
  cases r <;> cases other <;> first | exact absurd rfl h | decide

/-- To keep a value of a resource is no business of the others. -/
theorem record?_keep_of_ne {other : Resource} (h : other ≠ r) (s : Store) (con : String)
    (value : r.Live) (etag : Option String) :
    record? other (keep r s con value etag) = record? other s := by
  rcases keep_cases r s con value etag with hk | hk
  · rw [hk]
  · rw [hk]
    exact Records.find?_insert_of_ne (recordKey_ne h) _ s.records

theorem record?_drop_of_ne {other : Resource} (h : other ≠ r) (s : Store) :
    record? other (drop r s) = record? other s := by
  rcases drop_cases r s with hd | hd
  · rw [hd]
  · rw [hd]
    exact Records.find?_erase_of_ne (recordKey_ne h) s.records

end Cache

/-! ## Stores that never fail -/

/-- No operation of the store fails and everything that it is given is kept: it is a memory without
a quota or a database. -/
structure Store.IsSound (s : Store) : Prop where
  failing : s.failing = []
  kind : s.kind = .memory none ∨ s.kind = .database

namespace Store.IsSound

variable {r : Resource} {s : Store}

theorem readable (h : s.IsSound) : .get ∉ s.failing := by simp [h.failing]

theorem enabled (h : s.IsSound) : s.kind ≠ .disabled := by
  rcases h.kind with hk | hk <;> simp [hk]

theorem reaches (h : s.IsSound) (con : String) (value : r.Live) (etag : Option String) :
    Cache.reaches r s con value etag = true := by
  have quota : ∀ key text, s.checkQuota key text = .ok () := by
    intro key text
    rcases h.kind with hk | hk <;> simp [checkQuota, hk]
  simp [Cache.reaches, Cache.put, set, h.failing, h.enabled, quota, Except.map]

theorem record?_keep (h : s.IsSound) (con : String) (value : r.Live) (etag : Option String) :
    Cache.record? r (Cache.keep r s con value etag) = some (Cache.recordText r con value etag) :=
  Cache.record?_keep_of_reaches (h.reaches con value etag) h.enabled

/-- A store that never fails is told by its kind and by what fails. -/
theorem congr {s' : Store} (h : s.IsSound) (kind : s'.kind = s.kind)
    (failing : s'.failing = s.failing) : s'.IsSound :=
  ⟨failing.trans h.failing, kind ▸ h.kind⟩

end Store.IsSound

end OfflineSchedule
