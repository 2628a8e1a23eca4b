import Mathlib.Data.List.Forall2
import OfflineSchedule.Proofs.Time.Rfc3339
import OfflineSchedule.Schedule.Resource
/-!
# Live values on the way through their stored shape

A live value that was decoded is decoded as itself again from the shape that it is stored in, unless
one of its instants lies in a year that cannot be read. Then it is not decoded at all, and the first
such timestamp is the error (`Resource.ofStored_toStored_eq`). It is never decoded as another value.
-/

namespace OfflineSchedule

open Time (Instant)

/-! ## Instants -/

/-- The year can be read when the instant is written. -/
def Time.Instant.IsReadable (t : Instant) : Prop := 0 ≤ t.date.year ∧ t.date.year ≤ 9999

instance (t : Instant) : Decidable t.IsReadable := inferInstanceAs (Decidable (_ ∧ _))

def Event.instants (e : Event) : List Instant := [e.starts, e.ends]

def ConInfo.instants (i : ConInfo) : List Instant := i.starts.toList ++ i.ends.toList

/-- All instants of a live value. -/
def Resource.instants : (r : Resource) → r.Live → List Instant
  | .events, es => es.flatMap Event.instants
  | .info, i => i.instants
  | .pages, _ => []
  | .announcements, as => as.map (·.postedAt)

/-! ## What is decoded -/

theorem bind_eq_ok {ε α β : Type} {x : Except ε α} {f : α → Except ε β} {b : β} :
    (x >>= f) = .ok b ↔ ∃ a, x = .ok a ∧ f a = .ok b := by
  cases x with
  | error e => simp [bind, Except.bind]
  | ok a => simp [bind, Except.bind]

/-- A list is decoded item by item. -/
theorem forall₂_of_mapM {ε α β : Type} {f : α → Except ε β} {xs : List α} {ys : List β}
    (h : xs.mapM f = .ok ys) : List.Forall₂ (fun x y => f x = .ok y) xs ys := by
  induction xs generalizing ys with
  | nil =>
    cases h
    exact .nil
  | cons x xs ih =>
    simp only [List.mapM_cons, bind_eq_ok] at h
    obtain ⟨y, hy, ys', hys, h⟩ := h
    cases h
    exact .cons hy (ih hys)

theorem exists_of_mem_of_mapM {ε α β : Type} {f : α → Except ε β} {xs : List α} {ys : List β}
    (h : xs.mapM f = .ok ys) {y : β} (hy : y ∈ ys) : ∃ x, f x = .ok y := by
  have items := forall₂_of_mapM h
  obtain ⟨i, hi, rfl⟩ := List.mem_iff_getElem.1 hy
  exact ⟨_, items.get (by rwa [items.length_eq]) hi⟩

theorem readTimestamp_eq_ok {field value : String} {t : Instant} :
    readTimestamp field value = .ok t ↔ Time.Rfc3339.read value = some t := by
  unfold readTimestamp
  cases Time.Rfc3339.read value with
  | none => simp
  | some t' => simp

theorem readOptionalTimestamp_eq_ok {field : String} {value : Option String} {t : Option Instant} :
    readOptionalTimestamp field value = .ok t ↔ value.map Time.Rfc3339.read = t.map some := by
  cases value with
  | none => cases t <;> simp [readOptionalTimestamp]
  | some value =>
    rw [readOptionalTimestamp, readTimestamp, Option.map_some]
    generalize Time.Rfc3339.read value = read
    cases read <;> cases t <;> simp [Except.map]

/-- The instants of an event are those of its texts. -/
theorem Event.read_of_mem_instants {e : StoredEvent} {live : Event}
    (h : Event.ofStored e = .ok live) {t : Instant} (ht : t ∈ live.instants) :
    ∃ text, Time.Rfc3339.read text = some t := by
  simp only [Event.ofStored, bind_eq_ok, readTimestamp_eq_ok] at h
  obtain ⟨starts, hs, ends, he, h⟩ := h
  cases h
  simp only [instants, List.mem_cons, List.not_mem_nil, or_false] at ht
  rcases ht with rfl | rfl
  · exact ⟨_, hs⟩
  · exact ⟨_, he⟩

theorem read_of_readOptionalTimestamp {field : String} {value : Option String}
    {t : Option Instant} (h : readOptionalTimestamp field value = .ok t) {t' : Instant}
    (ht : t' ∈ t.toList) : ∃ text, Time.Rfc3339.read text = some t' := by
  rw [readOptionalTimestamp_eq_ok, Option.mem_toList.1 ht, Option.map_some,
    Option.map_eq_some_iff] at h
  obtain ⟨text, -, read⟩ := h
  exact ⟨text, read⟩

theorem ConInfo.read_of_mem_instants {i : StoredInfo} {live : ConInfo}
    (h : ConInfo.ofStored i = .ok live) {t : Instant} (ht : t ∈ live.instants) :
    ∃ text, Time.Rfc3339.read text = some t := by
  simp only [ConInfo.ofStored, bind_eq_ok] at h
  obtain ⟨starts, hs, ends, he, h⟩ := h
  cases h
  rcases List.mem_append.1 ht with ht | ht
  · exact read_of_readOptionalTimestamp hs ht
  · exact read_of_readOptionalTimestamp he ht

theorem Announcement.read_postedAt {a : StoredAnnouncement} {live : Announcement}
    (h : Announcement.ofStored a = .ok live) :
    ∃ text, Time.Rfc3339.read text = some live.postedAt := by
  simp only [Announcement.ofStored, bind_eq_ok, readTimestamp_eq_ok] at h
  obtain ⟨postedAt, hp, h⟩ := h
  cases h
  exact ⟨_, hp⟩

/-- Every instant of a decoded value was read from some text. -/
theorem Resource.read_of_mem_instants : ∀ {r : Resource} {x : r.Stored} {live : r.Live},
    r.ofStored x = .ok live → ∀ t ∈ r.instants live, ∃ text, Time.Rfc3339.read text = some t
  | .events, _, _, h, t, ht => by
    obtain ⟨e, he, ht⟩ := List.mem_flatMap.1 ht
    obtain ⟨_, decoded⟩ := exists_of_mem_of_mapM h he
    exact Event.read_of_mem_instants decoded ht
  | .info, _, _, h, _, ht => ConInfo.read_of_mem_instants h ht
  | .pages, _, _, _, _, ht => nomatch ht
  | .announcements, _, _, h, t, ht => by
    obtain ⟨a, ha, rfl⟩ := List.mem_map.1 ht
    obtain ⟨_, decoded⟩ := exists_of_mem_of_mapM h ha
    exact Announcement.read_postedAt decoded

theorem Resource.regular_of_ofStored {r : Resource} {x : r.Stored} {live : r.Live}
    (h : r.ofStored x = .ok live) : ∀ t ∈ r.instants live, t.Regular := by
  intro t ht
  obtain ⟨text, read⟩ := read_of_mem_instants h t ht
  exact Time.Rfc3339.regular_of_read read

/-! ## What is stored -/

/-- What is wrong with the text of an instant in the given field. -/
def Time.Instant.fault (field : String) (t : Instant) : Option TimestampError :=
  if t.IsReadable then none else some ⟨field, Time.Rfc3339.write t⟩

def Event.fault (e : Event) : Option TimestampError :=
  (e.starts.fault "startTime").or (e.ends.fault "endTime")

def ConInfo.fault (i : ConInfo) : Option TimestampError :=
  (i.starts.bind (Instant.fault "startDate")).or (i.ends.bind (Instant.fault "endDate"))

/-- The first timestamp, in the order in which they are read, that is not read again after the value
has been stored. -/
def Resource.fault : (r : Resource) → r.Live → Option TimestampError
  | .events, es => es.findSome? Event.fault
  | .info, i => i.fault
  | .pages, _ => none
  | .announcements, as => as.findSome? fun a => a.postedAt.fault "postedAt"

/-- The value, unless there is something wrong with it. -/
def checked {ε α : Type} (fault : Option ε) (a : α) : Except ε α :=
  match fault with
  | none => .ok a
  | some e => .error e

theorem checked_eq_ok {ε α : Type} {fault : Option ε} {a b : α} :
    checked fault a = .ok b ↔ fault = none ∧ a = b := by
  cases fault <;> simp [checked]

theorem checked_eq_error {ε α : Type} {fault : Option ε} {a : α} {e : ε} :
    checked fault a = .error e ↔ fault = some e := by
  cases fault <;> simp [checked]

theorem checked_bind_checked {ε α β γ : Type} (fault fault' : Option ε) (a : α) (b : β)
    (f : α → β → γ) : (do
      let a ← checked fault a
      let b ← checked fault' b
      return f a b) = checked (fault.or fault') (f a b) := by
  cases fault <;> cases fault' <;> rfl

theorem readTimestamp_write {t : Instant} (regular : t.Regular) (field : String) :
    readTimestamp field (Time.Rfc3339.write t) = checked (t.fault field) t := by
  have again : Time.Rfc3339.read (Time.Rfc3339.write t) = if t.IsReadable then some t else none :=
    Time.Rfc3339.read_write regular
  rw [readTimestamp, again, Instant.fault]
  by_cases readable : t.IsReadable
  · rw [if_pos readable, if_pos readable]
    rfl
  · rw [if_neg readable, if_neg readable]
    rfl

theorem readOptionalTimestamp_write {t : Option Instant} (regular : ∀ t' ∈ t.toList, t'.Regular)
    (field : String) : readOptionalTimestamp field (t.map Time.Rfc3339.write) =
      checked (t.bind (Instant.fault field)) t := by
  cases t with
  | none => rfl
  | some t =>
    rw [Option.map_some, readOptionalTimestamp, readTimestamp_write (regular t (by simp)),
      Option.bind_some]
    cases t.fault field <;> rfl

theorem Event.ofStored_toStored_eq {e : Event} (regular : ∀ t ∈ e.instants, t.Regular) :
    Event.ofStored e.toStored = checked e.fault e := by
  have starts := readTimestamp_write (regular e.starts (by simp [instants])) "startTime"
  have ends := readTimestamp_write (regular e.ends (by simp [instants])) "endTime"
  simp only [Event.ofStored, Event.toStored, starts, ends]
  exact checked_bind_checked _ _ _ _ fun starts ends =>
    (⟨e.id, e.title, e.description, e.location, starts, ends, e.tags, e.hosts⟩ : Event)

theorem ConInfo.ofStored_toStored_eq {i : ConInfo} (regular : ∀ t ∈ i.instants, t.Regular) :
    ConInfo.ofStored i.toStored = checked i.fault i := by
  have starts := readOptionalTimestamp_write
    (fun t ht => regular t (List.mem_append_left _ ht)) "startDate"
  have ends := readOptionalTimestamp_write
    (fun t ht => regular t (List.mem_append_right _ ht)) "endDate"
  have links : (i.links.map Link.toStored).map Link.ofStored = i.links := by
    simp [Function.comp_def, Link.toStored, Link.ofStored]
  simp only [ConInfo.ofStored, ConInfo.toStored, starts, ends, links]
  exact checked_bind_checked _ _ _ _ fun starts ends =>
    (⟨i.name, i.description, i.timezone, starts, ends, i.links⟩ : ConInfo)

theorem Announcement.ofStored_toStored_eq {a : Announcement} (regular : a.postedAt.Regular) :
    Announcement.ofStored a.toStored = checked (a.postedAt.fault "postedAt") a := by
  simp only [Announcement.ofStored, Announcement.toStored, readTimestamp_write regular]
  cases a.postedAt.fault "postedAt" <;> rfl

theorem map_ofStored_toStored (pages : List Page) :
    (pages.map Page.toStored).map Page.ofStored = pages := by
  simp [Function.comp_def, Page.toStored, Page.ofStored]

/-- A list of items is as good as the first of them with which something is wrong. -/
theorem mapM_map_checked {ε α β : Type} {f : α → Except ε β} {g : β → α} {fault : β → Option ε}
    {ys : List β} (item : ∀ y ∈ ys, f (g y) = checked (fault y) y) :
    (ys.map g).mapM f = checked (ys.findSome? fault) ys := by
  induction ys with
  | nil => rfl
  | cons y ys ih =>
    have tail := ih fun y' hy' => item y' (List.mem_cons_of_mem y hy')
    rw [List.map_cons, List.mapM_cons, item y List.mem_cons_self, tail, List.findSome?_cons]
    -- The first item is decoded before anything is known of the others.
    cases fault y with
    | none => cases ys.findSome? fault <;> rfl
    | some e => rfl

/-- What becomes of a value that is stored and decoded again. -/
theorem Resource.ofStored_toStored_eq : ∀ {r : Resource} {live : r.Live},
    (∀ t ∈ r.instants live, t.Regular) → r.ofStored (r.toStored live) = checked (r.fault live) live
  | .events, _, regular =>
    mapM_map_checked fun e he => Event.ofStored_toStored_eq fun t ht =>
      regular t (List.mem_flatMap.2 ⟨e, he, ht⟩)
  | .info, _, regular => ConInfo.ofStored_toStored_eq regular
  | .pages, live, _ => congrArg Except.ok (map_ofStored_toStored live)
  | .announcements, _, regular =>
    mapM_map_checked fun a ha => Announcement.ofStored_toStored_eq
      (regular a.postedAt (List.mem_map_of_mem ha))

/-! ## Years that can be read -/

theorem Time.Instant.fault_eq_none {field : String} {t : Instant} :
    t.fault field = none ↔ t.IsReadable := by
  simp [fault]

theorem bind_fault_eq_none {field : String} {t : Option Instant} :
    t.bind (Instant.fault field) = none ↔ ∀ t' ∈ t.toList, t'.IsReadable := by
  simp [Option.bind_eq_none_iff, Instant.fault_eq_none]

theorem Event.fault_eq_none {e : Event} : e.fault = none ↔ ∀ t ∈ e.instants, t.IsReadable := by
  simp [fault, instants, Instant.fault_eq_none]

/-- Nothing is wrong if the years of all instants can be read. -/
theorem Resource.fault_eq_none : ∀ {r : Resource} {live : r.Live},
    r.fault live = none ↔ ∀ t ∈ r.instants live, t.IsReadable
  | .events, live => by
    simp only [fault, instants, List.findSome?_eq_none_iff, Event.fault_eq_none,
      List.forall_mem_flatMap]
  | .info, live => by
    simp only [fault, instants, ConInfo.fault, ConInfo.instants, Option.or_eq_none_iff,
      bind_fault_eq_none, List.mem_append, or_imp, forall_and]
  | .pages, _ => by simp [fault, instants]
  | .announcements, live => by simp [fault, instants, Instant.fault_eq_none]

variable {r : Resource} {x : r.Stored} {live live' : r.Live}

/-- A decoded value that is stored is decoded as itself or not at all. -/
theorem Resource.ofStored_again (h : r.ofStored x = .ok live)
    (h' : r.ofStored (r.toStored live) = .ok live') : live' = live := by
  rw [ofStored_toStored_eq (regular_of_ofStored h), checked_eq_ok] at h'
  exact h'.2.symm

/-- It is decoded as itself just if the years of all its instants can be read. -/
theorem Resource.ofStored_toStored_iff (h : r.ofStored x = .ok live) :
    r.ofStored (r.toStored live) = .ok live ↔ ∀ t ∈ r.instants live, t.IsReadable := by
  rw [ofStored_toStored_eq (regular_of_ofStored h), checked_eq_ok, fault_eq_none]
  exact and_iff_left rfl

/-! ## Payloads -/

/-- The value of a payload is decoded from a stored shape. -/
theorem Resource.exists_stored_of_liveOfValue {payload : Json.Value}
    (h : r.liveOfValue payload = .ok live) : ∃ x, r.ofStored x = .ok live := by
  unfold liveOfValue liveOfTree at h
  split at h
  · cases h
  · split at h
    · rename_i decoded
      cases h
      exact ⟨_, decoded⟩
    · cases h

/-- So it is decoded as itself, if at all, when it is stored. -/
theorem Resource.ofStored_of_liveOfValue {payload : Json.Value}
    (h : r.liveOfValue payload = .ok live) (h' : r.ofStored (r.toStored live) = .ok live') :
    live' = live := by
  obtain ⟨x, decoded⟩ := exists_stored_of_liveOfValue h
  exact ofStored_again decoded h'

/-- It is decoded as itself if the years of all its instants can be read. -/
theorem Resource.ofStored_toStored_of_liveOfValue {payload : Json.Value}
    (h : r.liveOfValue payload = .ok live) (readable : ∀ t ∈ r.instants live, t.IsReadable) :
    r.ofStored (r.toStored live) = .ok live := by
  obtain ⟨x, decoded⟩ := exists_stored_of_liveOfValue h
  exact (ofStored_toStored_iff decoded).2 readable

end OfflineSchedule
