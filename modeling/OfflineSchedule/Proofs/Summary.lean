import Mathlib.Data.List.Forall2
import Mathlib.Data.Prod.Lex
import OfflineSchedule.Proofs.Arrangement
import OfflineSchedule.Proofs.Time.Shown
import OfflineSchedule.Summary
/-!
# What a summary lists

Instants are ordered by their seconds and then by their nanoseconds (`Time.Instant.place`), also
within leap seconds. The events that have not ended by now are arranged by their start, of which the
first five are listed and the others counted, and the announcements from new to old
(`lists_what_is_to_come`). What stands in a line is told apart from how it is put together
(`IsHead`, `IsEventLine`, `IsAnnouncementLine`).
-/

namespace OfflineSchedule

open Sync (Status)
open Time (Instant)

namespace Time.Instant

/-- Where an instant stands in time. -/
def place (t : Instant) : ℤ ×ₗ ℕ := toLex (t.seconds, t.nanos)

theorem before_iff {a b : Instant} : a.before b = true ↔ a.place < b.place := by
  simp [before, place, Prod.Lex.toLex_lt_toLex]

theorem atMost_iff {a b : Instant} : a.atMost b = true ↔ a.place ≤ b.place := by
  rw [atMost, Bool.not_eq_true', ← Bool.not_eq_true, before_iff, not_lt]

end Time.Instant

namespace Summary

open OrderDual (toDual)

/-! ## What is listed -/

/-- The events that have not ended by now. -/
def toCome (s : Summary) : List Event := s.events.filter (s.now.place < ·.ends.place)

theorem isArranged_upcoming (s : Summary) :
    IsArranged (·.starts.place) s.toCome s.upcoming := by
  have same : s.toCome = s.events.filter (·.isUpcoming s.now) := by
    refine List.filter_congr fun e _ => ?_
    rw [Event.isUpcoming, Bool.eq_iff_iff, decide_eq_true_iff, Instant.before_iff]
  have atMost (a b : Event) : a.starts.atMost b.starts = true ↔ a.starts.place ≤ b.starts.place :=
    Instant.atMost_iff
  rw [same]
  exact isArranged_mergeSort atMost _

theorem isArranged_newestFirst (s : Summary) :
    IsArranged (fun a => toDual a.postedAt.place) s.announcements s.newestFirst := by
  have atMost (a b : Announcement) :
      b.postedAt.atMost a.postedAt = true ↔ toDual a.postedAt.place ≤ toDual b.postedAt.place :=
    Instant.atMost_iff
  exact isArranged_mergeSort atMost _

theorem length_upcoming (s : Summary) :
    s.upcoming.length = s.events.countP (s.now.place < ·.ends.place) := by
  rw [s.isArranged_upcoming.perm.length_eq, toCome, List.countP_eq_length_filter]

/-! ## Lines above the sections -/

/-- Lines of which each is told by what it stands for. -/
theorem forall₂_iff {α : Type} {Line : α → String → Prop} {line : α → String}
    (iff : ∀ a text, Line a text ↔ text = line a) {listed : List α} {lines : List String} :
    List.Forall₂ Line listed lines ↔ lines = listed.map line := by
  have same : Line = fun a text => line a = text :=
    funext fun a => funext fun text => propext ((iff a text).trans eq_comm)
  rw [same, ← List.forall₂_map_left_iff, List.forall₂_eq_eq_eq, eq_comm]

/-- How a status is written. -/
inductive Named : Status → String → Prop where
  | pending : Named .pending "pending"
  | success : Named .success "success"
  | error : Named .error "error"

theorem named_iff {status : Status} {word : String} : Named status word ↔ word = status.name := by
  constructor
  · intro named
    cases named <;> rfl
  · rintro rfl
    cases status <;> constructor

/-- The line has a label, the word for a status, and a detail in brackets if there is one. -/
def IsStatusLine (label : String) (status : Status) (detail line : String) : Prop :=
  ∃ word, Named status word ∧
    line = label ++ word ++ if detail = "" then "" else " (" ++ detail ++ ")"

/-- Labels are filled up to 15 characters. -/
theorem isStatusLine_iff (label padded : String) (pads : "  " ++ padRight 15 (label ++ ":") = padded)
    {status : Status} {detail line : String} :
    IsStatusLine padded status detail line ↔ line = statusLine label status detail := by
  simp only [IsStatusLine, named_iff, exists_eq_left, statusLine, String.isEmpty_iff, pads]
  split <;> simp [String.append_assoc]

/-- The lines above the sections name the con and tell the status of each resource that it has, how
much there is of it, how many events are to come, and whether anything is going to be fetched
again. -/
def IsHead (s : Summary) (count : ℕ) (lines : List String) : Prop :=
  ∃ events info pages announcements,
    IsStatusLine "  events:        " s.eventsStatus
      (toString s.events.length ++ " total, " ++ toString count ++ " upcoming") events ∧
    IsStatusLine "  info:          " s.infoStatus "" info ∧
    IsStatusLine "  pages:         " s.pagesStatus (toString s.pages.length) pages ∧
    List.Forall₂ (fun status => IsStatusLine "  announcements: " status
      (toString s.announcements.length)) s.announcementsStatus.toList announcements ∧
    lines = [(if s.info.name = "" then s.con else s.info.name) ++ " (" ++ s.con ++ ")",
        events, info, pages] ++ announcements ++
      if s.retrying then ["  (server data is stale, retrying)"] else []

theorem isHead_iff {s : Summary} {lines : List String} :
    IsHead s s.upcoming.length lines ↔ lines = s.head := by
  have title : s.title = if s.info.name = "" then s.con else s.info.name := by
    simp only [Summary.title, String.isEmpty_iff]
  have announced (status : Status) (line : String) :
      IsStatusLine "  announcements: " status (toString s.announcements.length) line ↔
        line = statusLine "announcements" status (toString s.announcements.length) :=
    isStatusLine_iff "announcements" _ rfl
  simp only [IsHead, forall₂_iff announced, isStatusLine_iff "events" "  events:        " rfl,
    isStatusLine_iff "info" "  info:          " rfl,
    isStatusLine_iff "pages" "  pages:         " rfl, exists_eq_left, exists_and_left, head, title]
  cases s.announcementsStatus <;> rfl

/-! ## Lines of the sections -/

/-- The line tells when the event starts, its title, and where it is if that is known. -/
def IsEventLine (e : Event) (line : String) : Prop :=
  ∃ start, e.starts.IsWeekdayTime start ∧
    line = "  " ++ start ++ "  " ++ e.title ++ e.location.elim "" (" @ " ++ ·)

theorem isEventLine_iff (e : Event) (line : String) :
    IsEventLine e line ↔ line = eventLine e := by
  simp only [IsEventLine, Instant.isWeekdayTime_iff, exists_eq_left, eventLine]
  cases e.location <;> simp [String.append_assoc]

/-- The line tells the title of the announcement and when it was posted. -/
def IsAnnouncementLine (a : Announcement) (line : String) : Prop :=
  ∃ posted, a.postedAt.IsMonthDayTime posted ∧ line = "  - " ++ a.title ++ " (" ++ posted ++ ")"

theorem isAnnouncementLine_iff (a : Announcement) (line : String) :
    IsAnnouncementLine a line ↔ line = announcementLine a := by
  simp only [IsAnnouncementLine, Instant.isMonthDayTime_iff, exists_eq_left, announcementLine]

/-- What is said of those of `count` events that are not listed. -/
def IsRemark (count : ℕ) (lines : List String) : Prop :=
  count ≤ 5 ∧ lines = [] ∨
    ∃ others, 0 < others ∧ others + 5 = count ∧ lines = ["  ... and " ++ toString others ++ " more"]

/-- The lines of a section show `body` below a heading. Without anything to show there is no
section. -/
structure IsSection (heading : String) (body lines : List String) : Prop where
  absent : lines = [] ↔ body = []
  headed : body ≠ [] → lines = "" :: heading :: body

theorem isSection_iff {heading : String} {body lines : List String} :
    IsSection heading body lines ↔ lines = titled heading body := by
  cases body with
  | nil => exact ⟨fun h => h.absent.2 rfl, fun h => ⟨by simp [h, titled], fun h => absurd rfl h⟩⟩
  | cons line body =>
    refine ⟨fun h => h.headed (List.cons_ne_nil _ _), ?_⟩
    rintro rfl
    exact ⟨by simp [titled], fun _ => rfl⟩

theorem upcomingLines_eq (s : Summary) :
    ∃ remark, IsRemark s.upcoming.length remark ∧
      s.upcomingLines = (s.upcoming.take 5).map eventLine ++ remark := by
  refine ⟨_, ?_, rfl⟩
  change IsRemark _ (if 5 < s.upcoming.length then _ else _)
  split
  · rename_i many
    exact .inr ⟨s.upcoming.length - 5, by omega, by omega, rfl⟩
  · rename_i few
    exact .inl ⟨by omega, rfl⟩

/-! ## The summary -/

/-- **What a summary lists.** Let a summary be of a con that was found. The events that have not
ended by now have one arrangement by their start in which those with the same start keep their
order, and the announcements have one from new to old. The text starts with the lines of status,
which say how many events are to come. Below them the first five of these have a line each, and the
others are counted in one more line, which is there exactly if there are others. The announcements
and the pages have a line each, the pages as they are given. A section is left out exactly if it has
no line. -/
theorem lists_what_is_to_come (s : Summary) (found : s.notFound = false) :
    let count := s.events.countP (s.now.place < ·.ends.place)
    ∃ coming posted head listed remark upcoming news announced pages,
      (∀ l, IsArranged (·.starts.place) (s.events.filter (s.now.place < ·.ends.place)) l ↔
        l = coming) ∧
      (∀ l, IsArranged (fun a => toDual a.postedAt.place) s.announcements l ↔ l = posted) ∧
      IsHead s count head ∧
      List.Forall₂ IsEventLine (coming.take 5) listed ∧ IsRemark count remark ∧
      IsSection "Upcoming:" (listed ++ remark) upcoming ∧
      List.Forall₂ IsAnnouncementLine posted news ∧ IsSection "Announcements:" news announced ∧
      IsSection "Pages:" (s.pages.map fun p => "  - " ++ p.title ++ " [" ++ p.slug ++ "]") pages ∧
      s.text = String.join ((head ++ upcoming ++ announced ++ pages).map (· ++ "\n")) := by
  intro count
  obtain ⟨remark, isRemark, listed⟩ := s.upcomingLines_eq
  have same : s.upcoming.length = count := s.length_upcoming
  have isHead : IsHead s s.upcoming.length s.head := isHead_iff.2 rfl
  rw [same] at isRemark isHead
  have text : s.text = String.join ((s.head ++ titled "Upcoming:" s.upcomingLines ++
      titled "Announcements:" (s.newestFirst.map announcementLine) ++
      titled "Pages:" (s.pages.map pageLine)).map (· ++ "\n")) := by
    rw [Summary.text, lines, found, if_neg Bool.false_ne_true]
  exact ⟨s.upcoming, s.newestFirst, s.head, _, remark, _, _, _, _, s.isArranged_upcoming.iff_eq,
    s.isArranged_newestFirst.iff_eq, isHead, (forall₂_iff isEventLine_iff).2 rfl, isRemark,
    isSection_iff.2 (listed ▸ rfl), (forall₂_iff isAnnouncementLine_iff).2 rfl,
    isSection_iff.2 rfl, isSection_iff.2 rfl, text⟩

/-- An event that is known by its title. -/
def talk (title : String) (location : Option String) (starts ends : Instant) : Event :=
  ⟨title, title, none, location, starts, ends, [], []⟩

/-- A con within the leap second at the end of 2016, in which one event ends and another one goes on
to its end. Two of the events to come start at the same time. -/
def inLeapSecond : Summary where
  con := "nye"
  now := ⟨1483228799, 1500000000⟩
  notFound := false
  retrying := true
  eventsStatus := .success
  infoStatus := .success
  pagesStatus := .error
  announcementsStatus := some .success
  info := { name := "New Year" }
  events := [talk "closing" none ⟨1483282800, 0⟩ ⟨1483286400, 0⟩,
    talk "panel" none ⟨1483264800, 0⟩ ⟨1483268400, 0⟩,
    talk "breakfast" none ⟨1483214400, 0⟩ ⟨1483228799, 1500000000⟩,
    talk "opening" (some "Hall A") ⟨1483223400, 0⟩ ⟨1483228799, 1600000000⟩,
    talk "games" none ⟨1483264800, 0⟩ ⟨1483272000, 0⟩,
    talk "brunch" none ⟨1483263000, 0⟩ ⟨1483266600, 0⟩,
    talk "dance" none ⟨1483279200, 0⟩ ⟨1483282800, 0⟩]
  pages := []
  announcements := [⟨"1", "Doors", "", ⟨1456736700, 0⟩⟩,
    ⟨"2", "Fireworks", "", ⟨1483228799, 1200000000⟩⟩]

theorem six_events_are_to_come :
    inLeapSecond.notFound = false ∧
    inLeapSecond.text = String.join (["New Year (nye)",
      "  events:        success (7 total, 6 upcoming)",
      "  info:          success",
      "  pages:         error (0)",
      "  announcements: success (2)",
      "  (server data is stale, retrying)",
      "",
      "Upcoming:",
      "  Sat 22:30  opening @ Hall A",
      "  Sun 09:30  brunch",
      "  Sun 10:00  panel",
      "  Sun 10:00  games",
      "  Sun 14:00  dance",
      "  ... and 1 more",
      "",
      "Announcements:",
      "  - Fireworks (Dec 31 23:59)",
      "  - Doors (Feb 29 09:05)"].map (· ++ "\n")) := by
  have found : inLeapSecond.notFound = false := rfl
  have six : inLeapSecond.events.countP (inLeapSecond.now.place < ·.ends.place) = 6 := by
    decide
  have count : inLeapSecond.upcoming.length = 6 := inLeapSecond.length_upcoming.trans six
  obtain ⟨coming, posted, head, listed, remark, upcoming, news, announced, pages, arranged,
    arranged', isHead, isListed, isRemark, isUpcoming, isNews, isAnnounced, isPages, text⟩ :=
    lists_what_is_to_come inLeapSecond found
  obtain rfl : _ = coming := (arranged _).1 inLeapSecond.isArranged_upcoming
  obtain rfl : _ = posted := (arranged' _).1 inLeapSecond.isArranged_newestFirst
  rw [six] at isRemark isHead
  have above : head = ["New Year (nye)", "  events:        success (7 total, 6 upcoming)",
      "  info:          success", "  pages:         error (0)", "  announcements: success (2)",
      "  (server data is stale, retrying)"] := by
    rw [← count] at isHead
    rw [isHead_iff.1 isHead, Summary.head, count]
    decide
  have five : listed = ["  Sat 22:30  opening @ Hall A", "  Sun 09:30  brunch",
      "  Sun 10:00  panel", "  Sun 10:00  games", "  Sun 14:00  dance"] := by
    rw [(forall₂_iff isEventLine_iff).1 isListed]
    cbv
  have more : remark = ["  ... and 1 more"] := by
    rcases isRemark with ⟨few, -⟩ | ⟨others, -, sum, rfl⟩
    · omega
    · obtain rfl : others = 1 := by omega
      rfl
  have two : news = ["  - Fireworks (Dec 31 23:59)", "  - Doors (Feb 29 09:05)"] := by
    rw [(forall₂_iff isAnnouncementLine_iff).1 isNews]
    cbv
  subst above five more two
  rw [isSection_iff.1 isUpcoming, isSection_iff.1 isAnnounced, isSection_iff.1 isPages] at text
  exact ⟨found, text⟩

end Summary

end OfflineSchedule
