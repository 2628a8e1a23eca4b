import OfflineSchedule.Proofs.Http.Endpoint
/-!
# What URLs tell of the names of cons

The server sees a con by the path of the URL, while its records are kept under its name as it is
typed. The two agree for every name without tabs and line breaks that is no dot segment: its segment
is decoded to the name, so that different names have different URLs. An empty name needs a segment
in front of its own, which is empty.

Other names leave less than themselves in the path (`trace`). The URLs of two names are the same
exactly if the names leave the same, or nothing that can be seen where they leave it
(`con_is_told_from_url`).
-/

namespace OfflineSchedule

namespace Url

variable {front path : List (List Char)} {name scheme : List Char}

/-! ## What a name leaves -/

/-- What a path holds of the name of a con. -/
inductive Trace where
  /-- A segment with what a URL can carry of the name. -/
  | segment (text : List Char) (solid : text ≠ [])
  /-- An empty segment. -/
  | gap
  | nothing
  /-- An empty segment in the place of the one before. -/
  | climb

namespace Trace

def IsHidden : Trace → Prop
  | segment _ _ => False
  | _ => True

/-- A path `front` with what a name leaves behind it. Empty segments give way to what follows if
nothing is in front of them. -/
def behind (front : List (List Char)) : Trace → List (List Char)
  | segment text _ => front ++ [encode (inSegment true) text]
  | gap => room (front ++ [[]])
  | nothing => front
  | climb => room (front.dropLast ++ [[]])

end Trace

def trace (name : List Char) : Trace :=
  if name = ['.'] ∨ name = ['.', '.'] then .nothing
  else if carried name = ['.', '.'] then .climb
  else if h : carried name = ['.'] ∨ carried name = [] then .gap
  else .segment (carried name) fun empty => h (.inr empty)

/-- Why a name leaves what it does. -/
theorem trace_cases (name : List Char) :
    (name = ['.'] ∨ name = ['.', '.']) ∧ trace name = .nothing ∨
    ¬ (name = ['.'] ∨ name = ['.', '.']) ∧
      (carried name = ['.', '.'] ∧ trace name = .climb ∨
        (carried name = ['.'] ∨ carried name = []) ∧ trace name = .gap ∨
        (carried name ≠ ['.'] ∧ carried name ≠ ['.', '.']) ∧
          ∃ solid, trace name = .segment (carried name) solid) := by
  unfold trace
  by_cases dots : name = ['.'] ∨ name = ['.', '.']
  · exact .inl ⟨dots, if_pos dots⟩
  refine .inr ⟨dots, ?_⟩
  rw [if_neg dots]
  by_cases climbs : carried name = ['.', '.']
  · exact .inl ⟨climbs, if_pos climbs⟩
  rw [if_neg climbs]
  by_cases unseen : carried name = ['.'] ∨ carried name = []
  · exact .inr (.inl ⟨unseen, dif_pos unseen⟩)
  · obtain ⟨notSingle, solid⟩ := not_or.1 unseen
    exact .inr (.inr ⟨⟨notSingle, climbs⟩, solid, dif_neg unseen⟩)

theorem encode_segment_ne_nil {text : List Char} (solid : text ≠ []) :
    encode (inSegment true) text ≠ [] :=
  encode_ne_nil (inSegment_percent true) solid

theorem room_of_last {s : List Char} (solid : s ≠ []) : room (front ++ [s]) = front ++ [s] := by
  refine if_neg fun same => ?_
  have last := congrArg List.getLast? same
  rw [List.getLast?_concat] at last
  exact solid (Option.some.inj last)

theorem room_concat_nil : room (front ++ [[]]) = if front = [] then [] else front ++ [[]] := by
  simp [room]

theorem room_pushSegment (web : IsWeb scheme) (path : List (List Char)) (name : List Char) :
    room (pushSegment scheme path name) = (trace name).behind (room path) := by
  rw [pushSegment_eq web.isFile, web.isSpecial]
  rcases trace_cases name with ⟨dots, left⟩ | ⟨dots, h⟩
  · rw [if_pos dots, left]
    rfl
  rw [if_neg dots]
  rcases h with ⟨climbs, left⟩ | ⟨unseen, left⟩ | ⟨⟨notSingle, level⟩, solid, left⟩
  · rw [if_pos climbs, left]
    rfl
  · have level : carried name ≠ ['.', '.'] := by
      rcases unseen with single | empty
      · rw [single]
        decide
      · rw [empty]
        decide
    have empty : (if carried name = ['.'] then [] else
        encode (inSegment true) (carried name)) = [] := by
      rcases unseen with single | empty
      · exact if_pos single
      · rw [empty]
        rfl
    rw [if_neg level, empty, left]
    rfl
  · rw [if_neg level, if_neg notSingle, room_of_last (encode_segment_ne_nil solid), left]
    rfl

/-- What is left can be told apart unless nothing of it can be seen. -/
theorem Trace.behind_eq_iff (roomy : front ≠ [[]]) (t u : Trace) :
    t.behind front = u.behind front ↔
      t = u ∨ t.IsHidden ∧ u.IsHidden ∧
        (front = [] ∨ front.getLast? = some [] ∧ t ≠ .gap ∧ u ≠ .gap) := by
  have same := @encode_inj (inSegment true) (inSegment_percent true)
  rcases List.eq_nil_or_concat front with rfl | ⟨init, s, rfl⟩
  · cases t <;> cases u <;> simp [behind, IsHidden, room, same]
  rw [List.concat_eq_append] at roomy ⊢
  have gap : room (init ++ [s] ++ [[]]) = init ++ [s] ++ [[]] := by
    rw [room_concat_nil, if_neg (by simp)]
  have climb : room ((init ++ [s]).dropLast ++ [[]]) = if init = [] then [] else init ++ [[]] := by
    rw [List.dropLast_concat, room_concat_nil]
  have seen {text : List Char} (h : text ≠ []) := encode_segment_ne_nil h
  -- A segment of a name and a gap stand behind the front, and the last segment of it gives way
  -- to a gap unseen only if it is empty itself.
  by_cases alone : init = []
  · subst alone
    have solid : s ≠ [] := fun empty => roomy (by rw [empty]; rfl)
    cases t <;> cases u <;> simp_all [behind, IsHidden]
  · cases t <;> cases u <;> simp_all [behind, IsHidden]

/-! ## Fronts -/

/-- The text of a path that gives way to the first segment behind it. -/
def IsBare (cs : List Char) : Prop := cs = ['/'] ∨ cs = ['/', '/']

instance (cs : List Char) : Decidable (IsBare cs) := inferInstanceAs (Decidable (_ ∨ _))

theorem pathChars_inj {path' : List (List Char)} (free : ∀ s ∈ path, '/' ∉ s)
    (free' : ∀ s ∈ path', '/' ∉ s) : pathChars path = pathChars path' ↔ path = path' := by
  refine ⟨fun same => ?_, congrArg _⟩
  have cut := congrArg (splitAt '/') same
  rw [splitAt_pathChars free, splitAt_pathChars free'] at cut
  exact (List.cons.inj cut).2

/-- What is in front of the segments that are pushed. -/
def stem (base : Url) : List (List Char) := room (popEmpty base.path)

variable {base : Url}

theorem stem_ne (base : Url) : base.stem ≠ [[]] := by
  unfold stem room
  split
  · nofun
  · assumption

theorem isBare_iff (h : IsPath base.path) :
    IsBare (pathChars base.path) ↔ base.path = [[]] ∨ base.path = [[], []] := by
  have slashes : ∀ n, ∀ s ∈ List.replicate n ([] : List Char), '/' ∉ s := by
    intro n s mem
    rw [List.eq_of_mem_replicate mem]
    exact List.not_mem_nil
  exact or_congr (pathChars_inj h.free (slashes 1)) (pathChars_inj h.free (slashes 2))

theorem stem_eq_nil_iff (h : IsPath base.path) :
    base.stem = [] ↔ IsBare (pathChars base.path) := by
  rw [isBare_iff h, stem]
  constructor
  · intro empty
    rcases room_cases (popEmpty base.path) with ⟨single, -⟩ | same
    · unfold popEmpty at single
      split at single
      · rename_i ends
        simp only [Bool.and_eq_true, decide_eq_true_eq] at ends
        obtain ⟨init, path⟩ := List.getLast?_eq_some_iff.1 ends.2
        rw [path, List.dropLast_concat] at single
        exact .inr (by rw [path, single]; rfl)
      · exact .inl single
    · exact absurd (same.symm.trans empty) h.popEmpty.nonempty
  · rintro (single | double)
    · rw [single]
      rfl
    · rw [double]
      rfl

/-- Names that have no segment of their own are seen as the same ones. -/
theorem stem_ends_iff (h : IsPath base.path) (P : Prop) :
    base.stem = [] ∨ base.stem.getLast? = some [] ∧ P ↔
      IsBare (pathChars base.path) ∨ EndsOpen (pathChars base.path) ∧ P := by
  rw [← getLast?_popEmpty h, ← stem_eq_nil_iff h, stem]
  rcases room_cases (popEmpty base.path) with ⟨-, empty⟩ | same
  · simp [empty]
  · rw [same]

/-! ## URLs that differ in their path -/

theorem chars_eq_iff {path path' : List (List Char)} (free : ∀ s ∈ path, '/' ∉ s)
    (free' : ∀ s ∈ path', '/' ∉ s) :
    ({ base with path := path } : Url).chars = ({ base with path := path' } : Url).chars ↔
      path = path' := by
  simp only [chars, requestTarget, List.append_cancel_left_eq, List.append_cancel_right_eq,
    pathChars_inj free free']

/-- The segment in front of the last one. -/
def segmentBeforeLast? (u : Url) : Option (List Char) := u.path.dropLast.getLast?

/-- Nothing of the name is lost in a URL below the base. -/
structure Survives (base : Url) (name : List Char) : Prop where
  whole : carried name = name
  notDots : name ≠ ['.'] ∧ name ≠ ['.', '.']
  seen : name = [] → ¬ IsBare (pathChars base.path)

theorem mem_stem {s : List Char} (mem : s ∈ base.stem) : s ∈ base.path := by
  have inPopped : s ∈ popEmpty base.path := by
    rcases room_cases (popEmpty base.path) with ⟨-, empty⟩ | same
    · rw [stem, empty] at mem
      cases mem
    · rwa [stem, same] at mem
  unfold popEmpty at inPopped
  split at inPopped
  · exact List.dropLast_subset _ inPopped
  · exact inPopped

theorem decode_getLast?_gap (front : List (List Char)) (name : List Char) :
    (room (front ++ [[]])).getLast?.map decode = some (bytes name) ↔ front ≠ [] ∧ name = [] := by
  have empty : some (decode []) = some (bytes name) ↔ name = [] := by
    have nothing : decode [] = bytes [] := rfl
    rw [nothing, Option.some_inj, bytes_injective.eq_iff, eq_comm]
  rw [room_concat_nil]
  split
  · simp_all
  · simp_all

/-- The last segment behind a base is decoded to the name only if it stands for it. -/
theorem decode_trace (h : IsPath base.path) (level : ∀ s ∈ base.path, IsLevel s)
    (name : List Char) :
    ((trace name).behind base.stem).getLast?.map decode = some (bytes name) ↔
      Survives base name := by
  rcases trace_cases name with ⟨dots, left⟩ | ⟨dots, why⟩
  · -- The segment before belongs to the base, in which dot segments have been resolved.
    rw [left]
    refine ⟨fun decoded => ?_, fun survives => absurd dots (not_or.2 survives.notDots)⟩
    obtain ⟨s, last, decoded⟩ := Option.map_eq_some_iff.1 decoded
    obtain ⟨notSingle, notDouble⟩ := level s (mem_stem (List.mem_of_getLast? last))
    rcases dots with rfl | rfl
    · rw [isSingleDot_iff_decode.2 decoded] at notSingle
      cases notSingle
    · rw [isDoubleDot_iff_decode.2 decoded] at notDouble
      cases notDouble
  rcases why with ⟨climbs, left⟩ | ⟨unseen, left⟩ | ⟨⟨notSingle, notDouble⟩, solid, left⟩
  · rw [left, Trace.behind, decode_getLast?_gap]
    constructor
    · rintro ⟨-, rfl⟩
      cases climbs
    · intro survives
      rw [survives.whole] at climbs
      exact absurd climbs survives.notDots.2
  · rw [left, Trace.behind, decode_getLast?_gap, Ne, stem_eq_nil_iff h]
    constructor
    · rintro ⟨notBare, rfl⟩
      exact ⟨rfl, not_or.1 dots, fun _ => notBare⟩
    · intro survives
      rw [survives.whole] at unseen
      have empty : name = [] := unseen.resolve_left survives.notDots.1
      exact ⟨survives.seen empty, empty⟩
  · have decoded : decode (encode (inSegment true) (carried name)) = bytes (carried name) :=
      decode_encode (inSegment_percent true) _
    rw [left, Trace.behind, List.getLast?_concat, Option.map_some, Option.some_inj, decoded,
      bytes_injective.eq_iff]
    constructor
    · intro whole
      rw [whole] at notSingle notDouble solid
      exact ⟨whole, ⟨notSingle, notDouble⟩, fun empty => absurd empty solid⟩
    · exact Survives.whole

end Url

namespace Http

open Url

variable {text : String} {base : Url}

theorem pushSegment_name {scheme : List Char} (web : IsWeb scheme) (path : List (List Char))
    (r : Resource) : pushSegment scheme path r.name.toList = room path ++ [r.name.toList] := by
  rw [pushSegment_eq web.isFile, web.isSpecial]
  cases r <;> rfl

theorem path_endpointUrl (web : IsWeb base.scheme) (con : String) (r : Resource) :
    (endpointUrl base con r.name).path =
      (trace con.toList).behind base.stem ++ [r.name.toList] := by
  have pushed : (endpointUrl base con r.name).path =
      pushSegment base.scheme (pushSegment base.scheme (popEmpty base.path) con.toList)
        r.name.toList := rfl
  rw [pushed, pushSegment_name web, room_pushSegment web, stem]

theorem isPath_endpointUrl (reads : baseUrl text = .ok base) (web : IsWeb base.scheme)
    (con : String) (r : Resource) : IsPath (endpointUrl base con r.name).path :=
  ((isPath_baseUrl reads web).popEmpty.pushSegment web.isFile con.toList).pushSegment web.isFile
    r.name.toList

theorem chars_endpointUrl_eq_iff (reads : baseUrl text = .ok base) (web : IsWeb base.scheme)
    (con other : String) (r : Resource) :
    (endpointUrl base con r.name).chars = (endpointUrl base other r.name).chars ↔
      (trace con.toList).behind base.stem = (trace other.toList).behind base.stem := by
  have same := @chars_eq_iff base _ _ (isPath_endpointUrl reads web con r).free
    (isPath_endpointUrl reads web other r).free
  rw [path_endpointUrl web, path_endpointUrl web, List.append_cancel_right_eq,
    ← path_endpointUrl web, ← path_endpointUrl web] at same
  exact same

/-- **What URLs tell of the names of cons.** Let a base URL of the web be read, and let a resource
be any. The segment in front of the last one is decoded to the name of the con if and only if the
name survives: it has no tab or line break, is no dot segment, and is not empty where the path of
the base is made of one or two slashes. Different names that survive have different URLs.

The URLs of any two names are the same if and only if they leave the same in the path, or leave no
segment with a text, and what they leave cannot be told apart behind the path of the base. That is so
if it is made of one or two slashes, or ends in two of them and neither name leaves a gap. -/
theorem con_is_told_from_url (reads : baseUrl text = .ok base) (web : IsWeb base.scheme)
    (r : Resource) :
    (∀ con : String,
      (endpointUrl base con r.name).segmentBeforeLast?.map decode = some (bytes con.toList) ↔
        Survives base con.toList) ∧
    (∀ con other : String, Survives base con.toList → Survives base other.toList →
      (endpointUrl base con r.name).chars = (endpointUrl base other r.name).chars → con = other) ∧
    ∀ con other : String,
      (endpointUrl base con r.name).chars = (endpointUrl base other r.name).chars ↔
        trace con.toList = trace other.toList ∨
        (trace con.toList).IsHidden ∧ (trace other.toList).IsHidden ∧
          (IsBare (pathChars base.path) ∨
            EndsOpen (pathChars base.path) ∧
              trace con.toList ≠ .gap ∧ trace other.toList ≠ .gap) := by
  have path : IsPath base.path := isPath_baseUrl reads web
  have level : ∀ s ∈ base.path, IsLevel s := isLevel_of_read (read_of_baseUrl reads) web
  have decoded (con : String) :
      (endpointUrl base con r.name).segmentBeforeLast?.map decode = some (bytes con.toList) ↔
        Survives base con.toList := by
    rw [segmentBeforeLast?, path_endpointUrl web, List.dropLast_concat]
    exact decode_trace path level con.toList
  refine ⟨decoded, fun con other survives survives' same => ?_, fun con other => ?_⟩
  · have left := (chars_endpointUrl_eq_iff reads web con other r).1 same
    have read := (decode_trace path level _).2 survives
    rw [left, (decode_trace path level _).2 survives'] at read
    exact String.toList_inj.1 (bytes_injective (Option.some.inj read)).symm
  · rw [chars_endpointUrl_eq_iff reads web, Trace.behind_eq_iff base.stem_ne, stem_ends_iff path]

/-- Escapes in the name of a con are not taken for what they stand for. -/
theorem con_with_escape_is_told_from_url :
    let con := "con%20a"
    let other := "con a"
    baseUrl "https://api.example.org/v1/" = .ok versioned ∧ IsWeb versioned.scheme ∧
      Survives versioned con.toList ∧ Survives versioned other.toList ∧
      (endpointUrl versioned con "events").segmentBeforeLast?.map decode =
        some (bytes con.toList) ∧
      (endpointUrl versioned con "events").chars ≠ (endpointUrl versioned other "events").chars := by
  intro con other
  have web : IsWeb versioned.scheme := .inr rfl
  have survives : Survives versioned con.toList := ⟨by decide, by decide, by decide⟩
  have survives' : Survives versioned other.toList := ⟨by decide, by decide, by decide⟩
  obtain ⟨decoded, apart, -⟩ := con_is_told_from_url baseUrl_versioned web .events
  refine ⟨baseUrl_versioned, web, survives, survives', (decoded con).2 survives, fun same => ?_⟩
  exact absurd (apart con other survives survives' same) (by decide)

/-- A tab is lost on the way, so that two cons share a URL and the server is asked for the other. -/
theorem tab_in_name_is_lost :
    let con := "con\ta"
    let other := "cona"
    let u := endpointUrl versioned con "events"
    baseUrl "https://api.example.org/v1/" = .ok versioned ∧ IsWeb versioned.scheme ∧ con ≠ other ∧
      u.chars = "https://api.example.org/v1/cona/events".toList ∧
      u.chars = (endpointUrl versioned other "events").chars ∧
      u.segmentBeforeLast?.map decode ≠ some (bytes con.toList) :=
  ⟨baseUrl_versioned, .inr rfl, by decide, by decide, by decide, by decide⟩

end Http

end OfflineSchedule
