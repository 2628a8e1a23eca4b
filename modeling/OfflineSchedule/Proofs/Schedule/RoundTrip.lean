import OfflineSchedule.Proofs.Schedule.Live
/-!
# The round trip of decoded values

A stored shape that is decoded and stored again keeps everything but the spelling of its timestamps,
which are then in universal time. An offset can move an instant out of the years that can be read,
into the year before year 0 or after year 9999. Such a value is stored, but what is stored for it is
not decoded any more.
-/

namespace OfflineSchedule

open Time (Instant)

/-! ## All but the timestamps -/

/-- The shape with no text in its timestamps. -/
def StoredEvent.untimed (e : StoredEvent) : StoredEvent := { e with startTime := "", endTime := "" }

/-- Timestamps that are set stay set. -/
def StoredInfo.untimed (i : StoredInfo) : StoredInfo :=
  { i with startDate := i.startDate.map fun _ => "", endDate := i.endDate.map fun _ => "" }

def StoredAnnouncement.untimed (a : StoredAnnouncement) : StoredAnnouncement :=
  { a with postedAt := "" }

def Resource.untimed : (r : Resource) → r.Stored → r.Stored
  | .events, es => es.map StoredEvent.untimed
  | .info, i => i.untimed
  | .pages, ps => ps
  | .announcements, as => as.map StoredAnnouncement.untimed

theorem Event.untimed_toStored {e : StoredEvent} {live : Event} (h : Event.ofStored e = .ok live) :
    live.toStored.untimed = e.untimed := by
  simp only [Event.ofStored, bind_eq_ok] at h
  obtain ⟨starts, -, ends, -, h⟩ := h
  cases h
  rfl

theorem map_const_of_readOptionalTimestamp {field : String} {value : Option String}
    {t : Option Instant} (h : readOptionalTimestamp field value = .ok t) :
    ((t.map Time.Rfc3339.write).map fun _ => "") = value.map fun _ => "" := by
  have same := congrArg (Option.map fun _ => "") (readOptionalTimestamp_eq_ok.1 h)
  simpa only [Option.map_map, Function.comp_def] using same.symm

theorem ConInfo.untimed_toStored {i : StoredInfo} {live : ConInfo}
    (h : ConInfo.ofStored i = .ok live) : live.toStored.untimed = i.untimed := by
  simp only [ConInfo.ofStored, bind_eq_ok] at h
  obtain ⟨starts, hs, ends, he, h⟩ := h
  cases h
  have links : (i.links.map Link.ofStored).map Link.toStored = i.links := by
    simp [Function.comp_def, Link.toStored, Link.ofStored]
  simp only [toStored, StoredInfo.untimed, map_const_of_readOptionalTimestamp hs,
    map_const_of_readOptionalTimestamp he, links]

theorem Announcement.untimed_toStored {a : StoredAnnouncement} {live : Announcement}
    (h : Announcement.ofStored a = .ok live) : live.toStored.untimed = a.untimed := by
  simp only [Announcement.ofStored, bind_eq_ok] at h
  obtain ⟨postedAt, -, h⟩ := h
  cases h
  rfl

/-- What is kept of each item is kept of a list, whose items stay as many and in order. -/
theorem map_map_of_mapM {ε α β γ : Type} {f : α → Except ε β} {g : β → α} {view : α → γ}
    (item : ∀ {x y}, f x = .ok y → view (g y) = view x) {xs : List α} {ys : List β}
    (h : xs.mapM f = .ok ys) : (ys.map g).map view = xs.map view := by
  have items := forall₂_of_mapM h
  clear h
  induction items with
  | nil => rfl
  | cons head _ ih => rw [List.map_cons, List.map_cons, List.map_cons, item head, ih]

/-- Storing a decoded value keeps all but its timestamps. -/
theorem Resource.untimed_toStored : ∀ {r : Resource} {x : r.Stored} {live : r.Live},
    r.ofStored x = .ok live → r.untimed (r.toStored live) = r.untimed x
  | .events, _, _, h => map_map_of_mapM Event.untimed_toStored h
  | .info, _, _, h => ConInfo.untimed_toStored h
  | .pages, ps, live, h => by
    cases h
    simp [untimed, toStored, Function.comp_def, Page.toStored, Page.ofStored]
  | .announcements, _, _, h => map_map_of_mapM Announcement.untimed_toStored h

/-! ## The round trip -/

/-- An instant that was read is written in a year that can be read, but for the last hours before
year 0 and the first ones after year 9999. -/
theorem Time.Instant.year_of_not_isReadable {t : Instant} {text : String}
    (read : Time.Rfc3339.read text = some t) (unreadable : ¬ t.IsReadable) :
    t.date.year = -1 ∨ t.date.year = 10000 := by
  have bounds := Time.Rfc3339.year_of_read read
  unfold IsReadable at unreadable
  omega

/-- **Decoded values and the cache.** Let a stored shape of any resource be decoded. The value is
decoded as itself from the shape that it is stored in if, and only if, the years of all its instants
can be read; an instant of another year lies in the year before year 0 or after year 9999. Then the
first such timestamp is the error. In no case is another value decoded, or stored after that, and
what is stored is what was decoded, item by item, up to the texts of the timestamps. -/
theorem decoded_value_survives_iff {r : Resource} {x : r.Stored} {live : r.Live}
    (decoded : r.ofStored x = .ok live) :
    (r.ofStored (r.toStored live) = .ok live ↔ ∀ t ∈ r.instants live, t.IsReadable) ∧
    (∀ t ∈ r.instants live, ¬ t.IsReadable → t.date.year = -1 ∨ t.date.year = 10000) ∧
    (∀ e, r.ofStored (r.toStored live) = .error e ↔ r.fault live = some e) ∧
    (∀ live', r.ofStored (r.toStored live) = .ok live' →
      live' = live ∧ r.toStored live' = r.toStored live) ∧
    r.untimed (r.toStored live) = r.untimed x := by
  refine ⟨Resource.ofStored_toStored_iff decoded, fun t ht unreadable => ?_, fun e => ?_,
    fun live' again => ?_, Resource.untimed_toStored decoded⟩
  · obtain ⟨text, read⟩ := Resource.read_of_mem_instants decoded t ht
    exact Instant.year_of_not_isReadable read unreadable
  · rw [Resource.ofStored_toStored_eq (Resource.regular_of_ofStored decoded), checked_eq_error]
  · have same := Resource.ofStored_again decoded again
    exact ⟨same, congrArg r.toStored same⟩

/-- An event whose timestamps have an offset, and a leap second, survives. -/
theorem event_with_offsets_survives :
    let x : StoredEvent := ⟨"e1", "Opening", none, some "Main Hall", "2016-12-31T23:59:60.5Z",
      "2017-01-01 02:00:00+02:00", ["panel"], []⟩
    let live : Event := ⟨"e1", "Opening", none, some "Main Hall", ⟨1483228799, 1500000000⟩,
      ⟨1483228800, 0⟩, ["panel"], []⟩
    Resource.events.ofStored [x] = .ok [live] ∧
      Resource.events.ofStored (Resource.events.toStored [live]) = .ok [live] := by
  intro x live
  have decoded : Resource.events.ofStored [x] = .ok [live] := by decide +kernel
  have readable : ∀ t ∈ Resource.events.instants [live], t.IsReadable := by decide +kernel
  exact ⟨decoded, (decoded_value_survives_iff decoded).1.2 readable⟩

/-- An announcement of the first minute of year 0, one minute east of universal time, belongs to the
last minute of the year before. It is decoded, but not from the shape that it is stored in. -/
theorem announcement_before_year_zero_is_lost :
    let x : StoredAnnouncement := ⟨"a1", "News", "b", "0000-01-01T00:00:00+00:01"⟩
    let live : Announcement := ⟨"a1", "News", "b", ⟨-62167219260, 0⟩⟩
    Resource.announcements.ofStored [x] = .ok [live] ∧
      Resource.announcements.ofStored (Resource.announcements.toStored [live]) =
        .error ⟨"postedAt", "-0001-12-31T23:59:00+00:00"⟩ := by
  decide +kernel

end OfflineSchedule
