import OfflineSchedule.Proofs.Cache.Usable
import OfflineSchedule.Proofs.Schedule.Stored
/-!
# Envelopes are read back

An envelope that was written is got as it was, and so is its header alone. What the cache has to
say about a con can thus be told from the envelope that was kept last.
-/

namespace OfflineSchedule

open Json

section

variable {α : Type} {read : Tree → Option α} {write : α → Value}

theorem Header.ofTree_written (write : α → Value) (e : Envelope α) :
    Header.ofTree (e.toValue write).written = some e.toHeader := by
  obtain ⟨⟨con, etag⟩, value⟩ := e
  cases etag <;>
    simp [ofTree, Envelope.toValue, fields, record?_written, optionalField, isOnce,
      Record.required, Record.withDefault, Record.find?]

theorem Envelope.ofTree_written (h : ∀ a, read (write a).written = some a) (e : Envelope α) :
    Envelope.ofTree read (e.toValue write).written = some e := by
  obtain ⟨⟨con, etag⟩, value⟩ := e
  cases etag <;>
    simp [ofTree, toValue, fields, record?_written, optionalField, isOnce, Record.required,
      Record.withDefault, Record.find?, h]

theorem Envelope.isTextual_toValue (h : ∀ a, (write a).isTextual) (e : Envelope α) :
    (e.toValue write).isTextual := by
  simp [toValue, Value.isTextual, haveTextual_append, haveTextual_optionalField,
    Value.haveTextual, h]

namespace Cache

variable {s : Store} {key : String} {e : Envelope α}

/-- The envelope whose text is kept is got. -/
theorem get_of_text? (textual : ∀ a, (write a).isTextual)
    (h : ∀ a, read (write a).written = some a)
    (kept : text? s key = some (e.toValue write).render) :
    get read s key = some e := by
  rw [get, kept, Option.bind_some, ofText_render (e.isTextual_toValue textual), Option.bind_some,
    Envelope.ofTree_written h]

/-- So is its header. -/
theorem header_of_text? (textual : ∀ a, (write a).isTextual)
    (kept : text? s key = some (e.toValue write).render) : header s key = some e.toHeader := by
  rw [header, kept, Option.bind_some, ofText_render (e.isTextual_toValue textual),
    Option.bind_some, Header.ofTree_written]

end Cache

end

/-! ## What is cached of a con -/

namespace Cache

variable {r : Resource} {s : Store} {con con' : String} {value value' : r.Live}
  {etag etag' : Option String}

/-- What is usable after a value was kept was made from that value. -/
theorem of_usable? (kept : record? r s = some (recordText r con value etag))
    (h : usable? r s con' = some (value', etag')) :
    con' = con ∧ etag' = etag ∧ r.ofStored (r.toStored value) = .ok value' := by
  obtain ⟨e, got, rfl, rfl, decoded⟩ := exists_envelope_of_usable? h
  have text : text? s r.name = some (recordText r con value etag) := by
    cases ht : text? s r.name with
    | none => simp [get, ht] at got
    | some text => rw [← kept, record?_of_text? ht]
  rw [get_of_text? r.isTextual_storedToValue r.storedOfTree_written text] at got
  obtain rfl := Option.some.inj got
  exact ⟨rfl, rfl, decoded⟩

/-- So was the etag that is sent. -/
theorem of_etag? {tag : String} (kept : record? r s = some (recordText r con value etag))
    (h : etag? r s con' = some tag) : con' = con ∧ etag = some tag := by
  have text : text? s r.name = some (recordText r con value etag) := by
    cases ht : text? s r.name with
    | none => simp [etag?, header, ht] at h
    | some text => rw [← kept, record?_of_text? ht]
  simp only [etag?, header_of_text? r.isTextual_storedToValue text] at h
  split at h
  · rename_i hc
    exact ⟨hc.symm, h⟩
  · cases h

/-- A value that was kept is usable if it can be decoded from the shape that it is stored in. -/
theorem usable?_of_kept (readable : .get ∉ s.failing)
    (kept : record? r s = some (recordText r con value etag))
    (decoded : r.ofStored (r.toStored value) = .ok value) :
    usable? r s con = some (value, etag) := by
  have text : text? s r.name = some (recordText r con value etag) :=
    (text?_of_readable readable).trans kept
  have got := get_of_text? r.isTextual_storedToValue r.storedOfTree_written text
  simp [usable?, got, Envelope.isFor, decoded]

/-- The etag that a value was kept under is asked about. -/
theorem etag?_of_kept (readable : .get ∉ s.failing)
    (kept : record? r s = some (recordText r con value etag)) : etag? r s con = etag := by
  have text : text? s r.name = some (recordText r con value etag) :=
    (text?_of_readable readable).trans kept
  rw [etag?, header_of_text? r.isTextual_storedToValue text]
  exact if_pos rfl

/-- The etag that is asked about depends on the record only. -/
theorem etag?_congr {s' : Store} (h : text? s' r.name = text? s r.name) (con : String) :
    etag? r s' con = etag? r s con := by
  simp only [etag?, header, h]

end Cache

end OfflineSchedule
