import OfflineSchedule.Proofs.Cache.Envelope
/-!
# The cache as a map

Over a store that never fails the cache is a map from keys to envelopes. What is put under a key is
got from there, with its value and without it, until it is replaced or removed; and whatever is read
under another key, it is what was read before. An envelope that the store does not take leaves the
store as it was.
-/

namespace OfflineSchedule.Cache

open Json (Tree Value)

variable {α : Type} {read : Tree → Option α} {write : α → Value} {s s' : Store}
  {key other raw : String} {e : Envelope α}

/-! ## Keys -/

theorem recordKey_injective : Function.Injective recordKey := by
  intro key other same
  have same := congrArg String.toList same
  simp only [recordKey, String.toList_append, List.append_cancel_left_eq] at same
  exact String.toList_inj.1 same

/-- What is got under a key depends on its record alone. -/
theorem get_congr (same : s'.get (recordKey key) = s.get (recordKey key))
    (read : Tree → Option α) : get read s' key = get read s key := by
  simp only [get, text?, same]

theorem header_congr (same : s'.get (recordKey key) = s.get (recordKey key)) :
    header s' key = header s key := by
  simp only [header, text?, same]

theorem get_of_absent (absent : s.get (recordKey key) = .ok none) (read : Tree → Option α) :
    get read s key = none := by
  simp only [get, text?, absent, Option.bind_none]

theorem header_of_absent (absent : s.get (recordKey key) = .ok none) : header s key = none := by
  simp only [header, text?, absent, Option.bind_none]

/-! ## Putting and removing -/

/-- An envelope reaches a store that never fails. -/
theorem put_of_sound (sound : s.IsSound) (write : α → Value) (key : String) (e : Envelope α) :
    put write s key e = (true,
      { s with records := s.records.insert (recordKey key) (e.toValue write).render }) := by
  have quota : s.checkQuota (recordKey key) (e.toValue write).render = .ok () := by
    rcases sound.kind with kind | kind <;> simp [Store.checkQuota, kind]
  simp [put, Store.set, sound.failing, sound.enabled, quota, Except.map]

/-- An envelope that the store does not take changes nothing. -/
theorem put_refused (refused : (put write s key e).1 = false) : (put write s key e).2 = s := by
  unfold put at refused ⊢
  split
  · rename_i set
    simp [set] at refused
  · rfl

theorem remove_of_sound (sound : s.IsSound) (key : String) :
    remove s key = { s with records := s.records.erase (recordKey key) } := by
  simp [remove, Store.remove, sound.failing]

/-- **The cache is a map.** In a store that never fails, whatever it holds, an envelope of any
resource that is put under any key is taken, and it is got under that key as it was put, and so is
its header. No other record changes, so that under any other key everybody reads what was there
before. When the key is removed, nothing is read under it any more, and the other records are still
the same. If a store does not take the envelope, because it fails or because its quota would be
exceeded, then it stays as it is. -/
theorem envelope_is_got_as_put (r : Resource) (s : Store) (key : String)
    (e : Envelope r.Stored) :
    let kept := (put r.storedToValue s key e).2
    let removed := remove kept key
    (s.IsSound →
      (put r.storedToValue s key e).1 = true ∧
      get r.storedOfTree kept key = some e ∧ header kept key = some e.toHeader ∧
      (∀ (α : Type) (read : Tree → Option α), get read removed key = none) ∧
      header removed key = none ∧
      (∀ raw, raw ≠ recordKey key → kept.get raw = s.get raw ∧ removed.get raw = s.get raw) ∧
      ∀ other, other ≠ key →
        (∀ (α : Type) (read : Tree → Option α), get read kept other = get read s other ∧
          get read removed other = get read s other) ∧
        header kept other = header s other ∧ header removed other = header s other) ∧
    ((put r.storedToValue s key e).1 = false → kept = s) := by
  intro kept removed
  refine ⟨fun sound => ?_, put_refused⟩
  have put_eq := put_of_sound sound r.storedToValue key e
  have kept_eq : kept =
      { s with records := s.records.insert (recordKey key) (e.toValue r.storedToValue).render } := by
    simp only [kept, put_eq]
  have kept_sound : kept.IsSound := sound.congr (by rw [kept_eq]) (by rw [kept_eq])
  have removed_eq : removed = { kept with records := kept.records.erase (recordKey key) } :=
    remove_of_sound kept_sound key
  have text : text? kept key = some (e.toValue r.storedToValue).render := by
    simp [text?, Store.get, kept_eq, sound.failing, Records.find?_insert_self]
  have absent : removed.get (recordKey key) = .ok none := by
    simp [Store.get, removed_eq, kept_sound.failing, Records.find?_erase_self]
  -- What is read under a key comes from its record, so it is enough that the others stay.
  have others : ∀ raw, raw ≠ recordKey key →
      kept.get raw = s.get raw ∧ removed.get raw = s.get raw := by
    intro raw ne
    constructor
    · simp [Store.get, kept_eq, Records.find?_insert_of_ne ne]
    · simp [Store.get, removed_eq, kept_eq, Records.find?_insert_of_ne ne,
        Records.find?_erase_of_ne ne]
  refine ⟨by rw [put_eq], get_of_text? r.isTextual_storedToValue r.storedOfTree_written text,
    header_of_text? r.isTextual_storedToValue text, fun _ => get_of_absent absent,
    header_of_absent absent, others, fun other ne => ?_⟩
  obtain ⟨same, same'⟩ := others (recordKey other) fun h => ne (recordKey_injective h)
  exact ⟨fun _ read => ⟨get_congr same read, get_congr same' read⟩, header_congr same,
    header_congr same'⟩

/-- A page whose texts need escapes is kept beside the record of the announcements, under an empty
etag. -/
theorem page_with_escapes_is_got :
    let page : StoredPage := ⟨"1", "\"quoted\" \\ \t", "", "\x00\u2028😀"⟩
    let e : Envelope (Resource.Stored .pages) := ⟨⟨"con \"a\"", some ""⟩, [page]⟩
    let s : Store := { kind := .memory none
                       records := ({} : Records).insert (recordKey "announcements") "\x7b" }
    let kept := (put Resource.pages.storedToValue s "pages" e).2
    s.IsSound ∧ get Resource.pages.storedOfTree kept "pages" = some e ∧
      header kept "pages" = some ⟨"con \"a\"", some ""⟩ ∧ "announcements" ≠ "pages" ∧
      header kept "announcements" = header s "announcements" := by
  intro page e s kept
  have sound : s.IsSound := ⟨rfl, .inl rfl⟩
  have ne : "announcements" ≠ "pages" := by decide
  obtain ⟨-, got, header, -, -, -, others⟩ := (envelope_is_got_as_put .pages s "pages" e).1 sound
  exact ⟨sound, got, header, ne, (others "announcements" ne).2.1⟩

end OfflineSchedule.Cache
