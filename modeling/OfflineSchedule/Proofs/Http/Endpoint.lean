import OfflineSchedule.Http.Endpoint
import OfflineSchedule.Proofs.Url.Path
import OfflineSchedule.Schedule.Resource
/-!
# Endpoints stay below their base

The URL of an endpoint differs from its base in the path alone: behind the segments of the base
stand the segment of the con, if the name of the con gives one, and the name of the resource
(`endpoint_is_below_base`). Whatever the name of the con is, its segment is read as nothing but that
name. The one exception is two dots with a tab or a line break among them. They are not recognized
as they are pushed, and then take the last segment of the base away.
-/

namespace OfflineSchedule

namespace Url

/-- The segment stands for what a URL can carry of the text and for nothing else: no character of it
separates parts of a URL, it is not resolved as dots, and its escapes are the bytes of the text. -/
structure Carries (s text : List Char) : Prop where
  literal : ∀ c ∈ s, c ∉ ['/', '\\', '?', '#']
  plain : isSingleDot s = false ∧ isDoubleDot s = false
  decoded : decode s = bytes (carried text)

theorem carries_segment {s text : List Char} (h : segment? true text = some s) :
    Carries s text := by
  obtain ⟨shown, same⟩ := Option.ite_none_left_eq_some.1 h
  obtain rfl := Option.some.inj same
  simp only [not_or] at shown
  have percent := inSegment_percent true
  have dot := inSegment_dot true
  refine ⟨fun c mem separator => ?_, ⟨?_, ?_⟩, decode_encode percent _⟩
  · have both : inSegment true c = true ∧ isEscapeChar c = false := by
      simp only [List.mem_cons, List.not_mem_nil, or_false] at separator
      rcases separator with rfl | rfl | rfl | rfl <;> decide
    exact not_mem_encode (.inl both.1) both.2 mem
  · rw [← Bool.not_eq_true, isSingleDot_encode percent dot]
    exact shown.2.1
  · rw [← Bool.not_eq_true, isDoubleDot_encode percent dot]
    exact shown.2.2

end Url

namespace Http

open Url

variable {text : String} {base : Url}

theorem read_of_baseUrl (reads : baseUrl text = .ok base) : Url.read text = .ok base := by
  unfold baseUrl at reads
  split at reads
  · rename_i u read
    cases reads
    exact read
  · cases reads
  · cases reads

theorem isPath_baseUrl (reads : baseUrl text = .ok base) (web : IsWeb base.scheme) :
    IsPath base.path :=
  isPath_of_read (read_of_baseUrl reads) web

/-- The names of resources are segments as they are. -/
theorem segment?_name (r : Resource) : segment? true r.name.toList = some r.name.toList := by
  cases r <;> decide

theorem not_climbs_name (r : Resource) : ¬ Climbs r.name.toList := by
  cases r <;> decide

/-- **Endpoints stay below their base.** Let a base URL of the web be read, and let the name of a
con and a resource be any. The URL of the endpoint is that of the base except for its path. Empty
segments aside, the path goes through all segments of the base, then through a segment of the con,
unless the name of the con is empty or a dot segment apart from tabs and line breaks, and ends with
the name of the resource. The segment of the con holds no separator, is no dot segment, and is
decoded to the name of the con without tabs and line breaks. It is not so if and only if tabs or
line breaks are all that keeps the name of the con from being two dots, and the path of the base is
not a slash alone and does not end in two. Then the last segment of the base is lost. -/
theorem endpoint_is_below_base (reads : baseUrl text = .ok base) (web : IsWeb base.scheme)
    (con : String) (r : Resource) :
    let u := endpointUrl base con r.name
    let leaves := Climbs con.toList ∧ ¬ EndsOpen (pathChars base.path)
    u = { base with path := u.path } ∧
    ((∃ segment : Option (List Char),
      u.steps = base.steps ++ segment.toList ++ [r.name.toList]) ↔ ¬ leaves) ∧
    (¬ leaves →
      u.steps = base.steps ++ (segment? true con.toList).toList ++ [r.name.toList]) ∧
    (∀ s ∈ segment? true con.toList, Carries s con.toList) ∧
    (leaves → base.steps ≠ [] ∧ u.steps = base.steps.dropLast ++ [r.name.toList]) := by
  intro u leaves
  have basePath : IsPath base.path := isPath_baseUrl reads web
  have popped : IsPath (popEmpty base.path) := basePath.popEmpty
  have extended := popped.pushSegment web.isFile con.toList
  have path : IsPath u.path := extended.pushSegment web.isFile r.name.toList
  -- The name of the resource is pushed behind what has become of the path with the con.
  have named : u.steps =
      solid (pushSegment base.scheme (popEmpty base.path) con.toList) ++ [r.name.toList] := by
    have pushed := (solid_pushSegment web.isFile
      (pushSegment base.scheme (popEmpty base.path) con.toList) r.name.toList).2 (not_climbs_name r)
    rw [web.isSpecial, segment?_name] at pushed
    rw [steps_eq u path]
    exact pushed
  obtain ⟨climbing, staying⟩ := solid_pushSegment web.isFile (popEmpty base.path) con.toList
  obtain ⟨open', closed⟩ := solid_dropLast_room (popEmpty base.path)
  rw [web.isSpecial, solid_popEmpty, ← steps_eq base basePath] at staying
  rw [solid_popEmpty, ← steps_eq base basePath] at open' closed
  have below : ¬ leaves →
      u.steps = base.steps ++ (segment? true con.toList).toList ++ [r.name.toList] := by
    intro stays
    by_cases climbs : Climbs con.toList
    · have endsOpen : EndsOpen (pathChars base.path) :=
        Decidable.not_not.1 fun ends => stays ⟨climbs, ends⟩
      have hidden : segment? true con.toList = none := if_pos (by simp [climbs.2])
      rw [named, climbing climbs, open' ((getLast?_popEmpty basePath).2 endsOpen), hidden]
      simp
    · rw [named, staying climbs]
  have lost : leaves → base.steps ≠ [] ∧ u.steps = base.steps.dropLast ++ [r.name.toList] := by
    rintro ⟨climbs, ends⟩
    have last : (popEmpty base.path).getLast? ≠ some [] := mt (getLast?_popEmpty basePath).1 ends
    have some := solid_ne_nil popped.nonempty last
    rw [solid_popEmpty, ← steps_eq base basePath] at some
    exact ⟨some, by rw [named, climbing climbs, closed last]⟩
  refine ⟨rfl, ⟨?_, fun stays => ⟨_, below stays⟩⟩, below, fun s shown => carries_segment shown, lost⟩
  rintro ⟨segment, through⟩ leaves
  obtain ⟨some, without⟩ := lost leaves
  have length := congrArg List.length (through.symm.trans without)
  have positive := List.length_pos_iff.2 some
  simp at length
  omega

/-- A base with one segment. -/
def versioned : Url where
  scheme := "https".toList
  authority := some ⟨none, "api.example.org".toList, none⟩
  path := ["v1".toList, []]
  query := none
  fragment := none

theorem baseUrl_versioned : baseUrl "https://api.example.org/v1/" = .ok versioned := by
  have reads : (baseUrl "https://api.example.org/v1/").toOption = some versioned := by
    decide +kernel
  cases read : baseUrl "https://api.example.org/v1/" with
  | ok u =>
    rw [read] at reads
    exact congrArg Except.ok (Option.some.inj reads)
  | error e =>
    rw [read] at reads
    cases reads

/-- Slashes, dots and percent signs in the name of a con are part of its segment. -/
theorem odd_con_stays_below_base :
    let con := "../%2e\t?"
    let u := endpointUrl versioned con "events"
    baseUrl "https://api.example.org/v1/" = .ok versioned ∧ IsWeb versioned.scheme ∧
      ¬ Climbs con.toList ∧
      u.steps = versioned.steps ++ ["..%2F%252e%3F".toList] ++ ["events".toList] := by
  intro con u
  have web : IsWeb versioned.scheme := .inr rfl
  have level : ¬ Climbs con.toList := by decide
  have segment : segment? true con.toList = some "..%2F%252e%3F".toList := by decide
  obtain ⟨-, -, below, -⟩ := endpoint_is_below_base baseUrl_versioned web con .events
  have steps := below fun leaves => level leaves.1
  rw [segment] at steps
  exact ⟨baseUrl_versioned, web, level, steps⟩

/-- Two dots with a tab between them take a segment of the base away, so that the request is made
outside of it. -/
theorem dots_around_tab_leave_base :
    let u := endpointUrl versioned ".\t." "events"
    baseUrl "https://api.example.org/v1/" = .ok versioned ∧ IsWeb versioned.scheme ∧
      u.chars = "https://api.example.org/events".toList ∧
      ∀ segment : Option (List Char),
        u.steps ≠ versioned.steps ++ segment.toList ++ ["events".toList] := by
  intro u
  have without : u.steps = ["events".toList] := by decide
  have before : versioned.steps = ["v1".toList] := by decide
  refine ⟨baseUrl_versioned, .inr rfl, by decide, fun segment through => ?_⟩
  rw [without, before] at through
  have length := congrArg List.length through
  simp at length

end Http

end OfflineSchedule
