import OfflineSchedule.Proofs.Json.Written
import OfflineSchedule.Schedule.Resource
/-!
# Stored shapes are read back

What a resource writes as JSON is read back as it was: a field that is left out is one that is not
set. The shapes are made of texts and lists alone, so their JSON text has the tree that is read.
-/

namespace OfflineSchedule

open Json

/-! ## Shapes -/

theorem StoredEvent.ofTree_written (e : StoredEvent) :
    StoredEvent.ofTree e.toValue.written = some e := by
  obtain ⟨id, title, description, location, starts, ends, tags, hosts⟩ := e
  cases description <;> cases location <;>
    simp [ofTree, toValue, fields, record?_written, optionalField, isOnce, Record.required,
      Record.withDefault, Record.find?]

theorem StoredLink.ofTree_written (l : StoredLink) :
    StoredLink.ofTree l.toValue.written = some l := by
  simp [ofTree, toValue, fields, record?_written, isOnce, Record.required, Record.find?]

theorem StoredInfo.ofTree_written (i : StoredInfo) :
    StoredInfo.ofTree i.toValue.written = some i := by
  obtain ⟨name, description, timezone, starts, ends, links⟩ := i
  have hl := list?_written StoredLink.ofTree_written links
  cases description <;> cases timezone <;> cases starts <;> cases ends <;>
    simp [ofTree, toValue, fields, record?_written, optionalField, isOnce, Record.required,
      Record.withDefault, Record.find?, hl]

theorem StoredPage.ofTree_written (p : StoredPage) :
    StoredPage.ofTree p.toValue.written = some p := by
  simp [ofTree, toValue, fields, record?_written, isOnce, Record.required, Record.withDefault,
    Record.find?]

theorem StoredAnnouncement.ofTree_written (a : StoredAnnouncement) :
    StoredAnnouncement.ofTree a.toValue.written = some a := by
  simp [ofTree, toValue, fields, record?_written, isOnce, Record.required, Record.withDefault,
    Record.find?]

/-! ## Texts and lists alone -/

theorem areTextual_map {α : Type} {write : α → Value} (h : ∀ a, (write a).isTextual) (as : List α) :
    Value.areTextual (as.map write) := by
  induction as with
  | nil => rfl
  | cons a as ih => simp [Value.areTextual, h, ih]

theorem haveTextual_append (ms ms' : List (String × Value)) :
    Value.haveTextual (ms ++ ms') = (Value.haveTextual ms && Value.haveTextual ms') := by
  induction ms with
  | nil => rfl
  | cons m ms ih => simp [Value.haveTextual, ih, Bool.and_assoc]

theorem haveTextual_optionalField (name : String) (o : Option String) :
    Value.haveTextual (optionalField name o) := by
  cases o <;> rfl

theorem isTextual_ofTexts (texts : List String) : (Value.ofTexts texts).isTextual :=
  areTextual_map (fun _ => rfl) texts

namespace Resource

/-- What a resource stores can be read back. -/
theorem storedOfTree_written : ∀ (r : Resource) (x : r.Stored),
    r.storedOfTree (r.storedToValue x).written = some x
  | events, es => list?_written StoredEvent.ofTree_written es
  | info, i => StoredInfo.ofTree_written i
  | pages, ps => list?_written StoredPage.ofTree_written ps
  | announcements, as => list?_written StoredAnnouncement.ofTree_written as

theorem isTextual_storedToValue : ∀ (r : Resource) (x : r.Stored), (r.storedToValue x).isTextual
  | events, es => areTextual_map (fun e => by
      simp [StoredEvent.toValue, Value.isTextual, haveTextual_append, haveTextual_optionalField,
        Value.haveTextual, isTextual_ofTexts]) es
  | info, i => by
    have links : Value.areTextual (i.links.map StoredLink.toValue) :=
      areTextual_map (fun _ => rfl) i.links
    simp [storedToValue, StoredInfo.toValue, Value.isTextual, haveTextual_append,
      haveTextual_optionalField, Value.haveTextual, links]
  | pages, ps => areTextual_map (fun _ => rfl) ps
  | announcements, as => areTextual_map (fun _ => rfl) as

end Resource

end OfflineSchedule
