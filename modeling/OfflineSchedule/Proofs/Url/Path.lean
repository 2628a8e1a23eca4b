import OfflineSchedule.Proofs.Url.Percent
import OfflineSchedule.Url.Reader
/-!
# Paths as they are written

A path is written with a slash in front of each of its segments, and because no segment holds a
slash of its own, the segments can be told from the text again (`splitAt_pathChars`). This is so for
the path of every URL that is read with a scheme of the web (`isPath_of_read`), and it stays so when
a segment is pushed (`IsPath.pushSegment`).

A pushed text appears as one segment, escaped, unless what is left of it without tabs and line
breaks is a dot segment. Two dots take the last segment away, but the reader of a segment looks for
them before it drops tabs and line breaks as well as after (`pushSegment_eq`).
-/

namespace OfflineSchedule.Url

variable {sep : Char} {s cs text : List Char} {path : List (List Char)} {scheme : List Char}

/-! ## Cutting at a separator -/

theorem splitAt_of_not_mem (h : sep ∉ cs) : splitAt sep cs = [cs] := by
  induction cs with
  | nil => rfl
  | cons c cs ih =>
    obtain ⟨ne, h⟩ := not_or.1 (mt List.mem_cons.2 h)
    rw [splitAt, if_neg (Ne.symm ne), ih h]

theorem splitAt_append (h : sep ∉ s) (cs : List Char) :
    splitAt sep (s ++ sep :: cs) = s :: splitAt sep cs := by
  induction s with
  | nil => simp [splitAt]
  | cons c s ih =>
    obtain ⟨ne, h⟩ := not_or.1 (mt List.mem_cons.2 h)
    rw [List.cons_append, splitAt, if_neg (Ne.symm ne), ih h]

theorem not_mem_of_mem_splitAt (mem : s ∈ splitAt sep cs) : sep ∉ s := by
  induction cs generalizing s with
  | nil =>
    obtain rfl := List.mem_singleton.1 mem
    exact List.not_mem_nil
  | cons c cs ih =>
    rw [splitAt] at mem
    split at mem
    · rcases List.mem_cons.1 mem with rfl | mem
      · exact List.not_mem_nil
      · exact ih mem
    · rename_i ne
      split at mem
      · obtain rfl := List.mem_singleton.1 mem
        simpa using Ne.symm ne
      · rename_i w ws cut
        rw [cut] at ih
        rcases List.mem_cons.1 mem with rfl | mem
        · exact mt List.mem_cons.1 (not_or.2 ⟨Ne.symm ne, ih List.mem_cons_self⟩)
        · exact ih (List.mem_cons_of_mem w mem)

/-! ## Paths -/

/-- A path has a segment at least, and none of them holds a slash. -/
structure IsPath (path : List (List Char)) : Prop where
  nonempty : path ≠ []
  free : ∀ s ∈ path, '/' ∉ s

/-- The segments are what slashes separate in the text of the path. -/
theorem splitAt_pathChars (free : ∀ s ∈ path, '/' ∉ s) :
    splitAt '/' (pathChars path) = [] :: path := by
  have behind : ∀ s, '/' ∉ s → splitAt '/' (s ++ pathChars path) = s :: path := by
    induction path with
    | nil =>
      intro s h
      rw [pathChars, List.flatMap_nil, List.append_nil, splitAt_of_not_mem h]
    | cons t path ih =>
      obtain ⟨first, others⟩ := List.forall_mem_cons.1 free
      intro s h
      have cut := splitAt_append h (t ++ pathChars path)
      rwa [ih others t first] at cut
  exact behind [] List.not_mem_nil

/-- The segments that are not empty. -/
def solid (path : List (List Char)) : List (List Char) := path.filter (· ≠ [])

/-- What slashes separate in the path of a URL as it is written, apart from what is empty. -/
def steps (u : Url) : List (List Char) := solid (splitAt '/' (pathChars u.path))

theorem steps_eq (u : Url) (h : IsPath u.path) : u.steps = solid u.path := by
  rw [steps, splitAt_pathChars h.free]
  rfl

@[simp] theorem solid_append (path path' : List (List Char)) :
    solid (path ++ path') = solid path ++ solid path' := List.filter_append ..

@[simp] theorem solid_empty : solid [[]] = [] := rfl

theorem solid_singleton (h : s ≠ []) : solid [s] = [s] := by simp [solid, h]

theorem solid_ne_nil (nonempty : path ≠ []) (last : path.getLast? ≠ some []) : solid path ≠ [] := by
  have mem := List.getLast_mem nonempty
  have notEmpty : path.getLast nonempty ≠ [] := fun h =>
    last (by rw [List.getLast?_eq_some_getLast nonempty, h])
  exact List.ne_nil_of_mem (List.mem_filter.2 ⟨mem, by simpa using notEmpty⟩)

/-! ## Pushing a segment -/

/-- What is left of a text in a URL: tabs and line breaks are dropped. -/
def carried (text : List Char) : List Char := text.filter fun c => !(c ∈ ['\t', '\n', '\r'])

/-- An empty path makes room for its first segment. -/
def room (path : List (List Char)) : List (List Char) := if path = [[]] then [] else path

theorem room_cases (path : List (List Char)) : path = [[]] ∧ room path = [] ∨ room path = path := by
  unfold room
  split
  · exact .inl ⟨‹_›, rfl⟩
  · exact .inr rfl

@[simp] theorem solid_room (path : List (List Char)) : solid (room path) = solid path := by
  rcases room_cases path with ⟨rfl, h⟩ | h <;> rw [h]
  rfl

@[simp] theorem solid_popEmpty (path : List (List Char)) : solid (popEmpty path) = solid path := by
  unfold popEmpty
  split
  · rename_i ends
    simp only [Bool.and_eq_true, decide_eq_true_eq] at ends
    obtain ⟨init, rfl⟩ := List.getLast?_eq_some_iff.1 ends.2
    simp
  · rfl

theorem shorten_false (path : List (List Char)) : shorten false path = path.dropLast := by
  unfold shorten
  split <;> rfl

theorem appendPlain_eq (path : List (List Char)) (s : List Char) :
    appendPlain false true path s =
      if isDoubleDot s then path.dropLast ++ [[]]
      else path ++ [if isSingleDot s then [] else s] := by
  unfold appendPlain
  rw [shorten_false]
  split
  · rfl
  · split <;> rfl

/-- What becomes of a path, without a drive, when a text is pushed. -/
theorem pushSegment_eq (web : isFile scheme = false) (path : List (List Char)) (text : List Char) :
    pushSegment scheme path text =
      if text = ['.'] ∨ text = ['.', '.'] then path
      else if carried text = ['.', '.'] then (room path).dropLast ++ [[]]
      else room path ++
        [if carried text = ['.'] then [] else encode (inSegment (isSpecial scheme)) (carried text)] := by
  have pushed : pushSegment scheme path text =
      if text = ['.'] ∨ text = ['.', '.'] then path
      else appendPlain false true (room path)
        (encode (inSegment (isSpecial scheme)) (carried text)) := by
    simp only [pushSegment, web, Bool.or_eq_true, decide_eq_true_eq, appendSegment,
      Bool.false_and, Bool.false_eq_true, if_false]
    rfl
  rw [pushed, appendPlain_eq]
  simp only [isDoubleDot_encode (inSegment_percent _) (inSegment_dot _),
    isSingleDot_encode (inSegment_percent _) (inSegment_dot _)]

/-- Tabs and line breaks are all that keeps the text from being two dots. -/
def Climbs (text : List Char) : Prop := text ≠ ['.', '.'] ∧ carried text = ['.', '.']

instance (text : List Char) : Decidable (Climbs text) := inferInstanceAs (Decidable (_ ∧ _))

/-- The segment as which a text appears. A text of which nothing or a dot segment is left does not
appear at all. -/
def segment? (special : Bool) (text : List Char) : Option (List Char) :=
  if carried text = [] ∨ carried text = ['.'] ∨ carried text = ['.', '.'] then none
  else some (encode (inSegment special) (carried text))

/-- A pushed text goes behind the path as one segment at most, or takes the last segment away. -/
theorem solid_pushSegment (web : isFile scheme = false) (path : List (List Char))
    (text : List Char) :
    (Climbs text → solid (pushSegment scheme path text) = solid (room path).dropLast) ∧
    (¬ Climbs text → solid (pushSegment scheme path text) =
      solid path ++ (segment? (isSpecial scheme) text).toList) := by
  have percent := inSegment_percent (isSpecial scheme)
  have dots : text = ['.'] ∨ text = ['.', '.'] → carried text = ['.'] ∨ text = ['.', '.'] := by
    rintro (rfl | rfl)
    · exact .inl rfl
    · exact .inr rfl
  rw [pushSegment_eq web]
  constructor
  · rintro ⟨notDots, climbs⟩
    have kept : ¬ (text = ['.'] ∨ text = ['.', '.']) := fun h => by
      rcases dots h with single | double
      · simp [climbs] at single
      · exact notDots double
    rw [if_neg kept, if_pos climbs, solid_append, solid_empty, List.append_nil]
  · intro stays
    by_cases plain : text = ['.'] ∨ text = ['.', '.']
    · have hidden : segment? (isSpecial scheme) text = none := by
        rcases plain with rfl | rfl <;> rfl
      rw [if_pos plain, hidden, Option.toList_none, List.append_nil]
    · have level : carried text ≠ ['.', '.'] := fun h => stays ⟨fun h => plain (.inr h), h⟩
      rw [if_neg plain, if_neg level, solid_append, solid_room, segment?]
      by_cases single : carried text = ['.']
      · simp [single]
      · by_cases empty : carried text = []
        · simp [empty, encode]
        · simp [single, empty, level, solid_singleton (encode_ne_nil percent empty)]

/-- The last segment is taken away unless it is empty. -/
theorem solid_dropLast_room (path : List (List Char)) :
    (path.getLast? = some [] → solid (room path).dropLast = solid path) ∧
    (path.getLast? ≠ some [] → solid (room path).dropLast = (solid path).dropLast) := by
  rcases List.eq_nil_or_concat path with rfl | ⟨init, s, rfl⟩
  · exact ⟨nofun, fun _ => rfl⟩
  rw [List.concat_eq_append, List.getLast?_concat]
  rcases room_cases (init ++ [s]) with ⟨same, h⟩ | h <;> rw [h]
  · rw [same]
    obtain ⟨rfl, rfl⟩ : init = [] ∧ s = [] := by simpa [List.append_eq_singleton_iff] using same
    exact ⟨fun _ => rfl, fun ne => absurd rfl ne⟩
  · rw [List.dropLast_concat]
    constructor
    · intro last
      obtain rfl := Option.some.inj last
      simp
    · intro last
      have notEmpty : s ≠ [] := fun h => last (congrArg some h)
      rw [solid_append, solid_singleton notEmpty, List.dropLast_concat]

/-! ## Where a path ends -/

/-- The text of a path is just a slash, or ends in two. -/
def EndsOpen (cs : List Char) : Prop := cs = ['/'] ∨ ['/', '/'] <:+ cs

instance (cs : List Char) : Decidable (EndsOpen cs) := inferInstanceAs (Decidable (_ ∨ _))

theorem slash_suffix (l front : List Char) (free : '/' ∉ s) :
    l ++ ['/'] <:+ front ++ '/' :: s ↔ s = [] ∧ l <:+ front := by
  rcases List.eq_nil_or_concat s with rfl | ⟨init, c, rfl⟩
  · simp [List.IsSuffix, ← List.append_assoc]
  · have notSlash : c ≠ '/' := by
      rintro rfl
      exact free (by simp)
    constructor
    · rintro ⟨t, same⟩
      have same : (t ++ l) ++ ['/'] = (front ++ '/' :: init) ++ [c] := by simpa using same
      have last := (List.append_inj' same rfl).2
      exact absurd (List.singleton_inj.1 last).symm notSlash
    · rintro ⟨empty, -⟩
      simp at empty

theorem pathChars_concat (path : List (List Char)) (s : List Char) :
    pathChars (path ++ [s]) = pathChars path ++ '/' :: s := by
  simp [pathChars]

/-- Whether the last segment in front of which a slash may be left out is empty. -/
theorem getLast?_popEmpty (h : IsPath path) :
    (popEmpty path).getLast? = some [] ↔ EndsOpen (pathChars path) := by
  obtain ⟨nonempty, free⟩ := h
  rcases List.eq_nil_or_concat path with rfl | ⟨init, s, rfl⟩
  · exact absurd rfl nonempty
  rw [List.concat_eq_append] at free ⊢
  have freeLast : '/' ∉ s := free s (by simp)
  have suffix : ∀ front, ['/', '/'] <:+ front ++ '/' :: s ↔ s = [] ∧ ['/'] <:+ front :=
    fun front => slash_suffix ['/'] front freeLast
  rcases List.eq_nil_or_concat init with rfl | ⟨init, r, rfl⟩
  · have single : popEmpty [s] = [s] := rfl
    have alone := suffix []
    rw [List.nil_append] at alone
    simp [single, EndsOpen, pathChars, alone]
  · rw [List.concat_eq_append] at free ⊢
    have freeBefore : '/' ∉ r := free r (by simp)
    have before : ['/'] <:+ pathChars init ++ '/' :: r ↔ r = [] := by
      simpa using slash_suffix [] (pathChars init) freeBefore
    have long : pathChars init ++ '/' :: r ++ '/' :: s ≠ ['/'] := by
      intro same
      have length := congrArg List.length same
      simp at length
      omega
    rw [EndsOpen, pathChars_concat, pathChars_concat, or_iff_right long, suffix, before]
    by_cases empty : s = []
    · simp [popEmpty, empty]
    · simp [popEmpty, empty]

/-! ## Segments free of slashes -/

theorem IsPath.concat (free : ∀ s ∈ path, '/' ∉ s) (h : '/' ∉ s) : IsPath (path ++ [s]) :=
  ⟨by simp, List.forall_mem_append.2 ⟨free, List.forall_mem_singleton.2 h⟩⟩

theorem IsPath.pushSegment (web : isFile scheme = false) (h : IsPath path) (text : List Char) :
    IsPath (pushSegment scheme path text) := by
  have free : ∀ s ∈ room path, '/' ∉ s := by
    rcases room_cases path with ⟨-, empty⟩ | same
    · rw [empty]
      exact nofun
    · rw [same]
      exact h.free
  rw [pushSegment_eq web]
  split
  · exact h
  · split
    · exact .concat (fun s mem => free s (List.dropLast_subset _ mem)) List.not_mem_nil
    · refine .concat free ?_
      split
      · exact List.not_mem_nil
      · exact not_mem_encode (.inl (inSegment_slash _)) rfl

theorem IsPath.popEmpty (h : IsPath path) : IsPath (popEmpty path) := by
  unfold Url.popEmpty
  split
  · rename_i ends
    simp only [Bool.and_eq_true, decide_eq_true_eq] at ends
    refine ⟨fun empty => ?_, fun s mem => h.free s (List.dropLast_subset _ mem)⟩
    have length := congrArg List.length empty
    rw [List.length_dropLast] at length
    simp at length
    omega
  · exact h

/-! ## Paths that are read -/

/-- A scheme of the web. -/
def IsWeb (scheme : List Char) : Prop := scheme = "http".toList ∨ scheme = "https".toList

theorem IsWeb.isFile (h : IsWeb scheme) : isFile scheme = false := by
  rcases h with rfl | rfl <;> decide

theorem IsWeb.isSpecial (h : IsWeb scheme) : isSpecial scheme = true := by
  rcases h with rfl | rfl <;> decide

theorem mem_appendPlain {last : Bool} {t : List Char} (mem : t ∈ appendPlain false last path s) :
    t ∈ path ∨ t = [] ∨ t = s := by
  have ends : ∀ {path' : List (List Char)},
      t ∈ (if last then path' ++ [[]] else path') → t ∈ path' ∨ t = [] := by
    cases last <;> simp +contextual [or_comm]
  rw [appendPlain, shorten_false] at mem
  split at mem
  · exact (ends mem).imp (List.dropLast_subset _ ·) .inl
  · split at mem
    · exact (ends mem).imp_right .inl
    · exact (List.mem_append.1 mem).imp_right fun new => .inr (List.mem_singleton.1 new)

theorem free_appendPlain (last : Bool) (free : ∀ s ∈ path, '/' ∉ s) (h : '/' ∉ s) :
    ∀ t ∈ appendPlain false last path s, '/' ∉ t := by
  intro t mem
  rcases mem_appendPlain mem with old | rfl | rfl
  · exact free t old
  · exact List.not_mem_nil
  · exact h

theorem isPath_readSegments {segments : List (List Char)} (nonempty : segments ≠ [])
    (freeSegments : ∀ s ∈ segments, '/' ∉ s) (free : ∀ s ∈ path, '/' ∉ s) :
    IsPath (readSegments false path segments) := by
  induction segments generalizing path with
  | nil => exact absurd rfl nonempty
  | cons s segments ih =>
    obtain ⟨first, others⟩ := List.forall_mem_cons.1 freeSegments
    have escaped : '/' ∉ encode inPath s := not_mem_encode (.inr first) rfl
    cases segments with
    | nil =>
      refine ⟨?_, free_appendPlain true free escaped⟩
      change appendPlain false true path (encode inPath s) ≠ []
      rw [appendPlain_eq]
      split <;> simp
    | cons t segments =>
      have next : ∀ t ∈ appendSegment false false path (encode inPath s), '/' ∉ t :=
        free_appendPlain false free escaped
      exact ih (by simp) others next

theorem cutSegments_ne_nil (special : Bool) (cs : List Char) : cutSegments special cs ≠ [] := by
  have cut : ∀ cs, splitAt '/' cs ≠ [] := by
    intro cs
    cases cs with
    | nil => simp [splitAt]
    | cons c cs =>
      rw [splitAt]
      split
      · simp
      · split <;> simp
  exact cut _

theorem isPath_readPath (h : IsWeb scheme) (cs : List Char) : IsPath (readPath scheme cs) := by
  have free : ∀ s ∈ cutSegments true cs, '/' ∉ s := fun s mem => not_mem_of_mem_splitAt mem
  have nonempty := cutSegments_ne_nil true cs
  have none : ∀ s ∈ ([] : List (List Char)), '/' ∉ s := nofun
  simp only [readPath, h.isFile, h.isSpecial, if_true, Bool.false_eq_true, if_false]
  split
  · exact ⟨by simp, by simp⟩
  · rename_i segments notEmpty cut
    rw [cut] at free
    exact isPath_readSegments (fun h => notEmpty (by rw [h])) (List.forall_mem_cons.1 free).2 none
  · exact isPath_readSegments nonempty free none

theorem readRest_scheme {rest : List Char} {u : Url} (reads : readRest scheme rest = .ok u) :
    u.scheme = scheme := by
  simp only [readRest] at reads
  repeat' split at reads
  all_goals cases reads
  all_goals rfl

/-- The path of a URL of the web is what is read of some text. -/
theorem path_of_read {text : String} {u : Url} (reads : read text = .ok u) (web : IsWeb u.scheme) :
    ∃ cs, u.path = readPath u.scheme cs := by
  unfold read at reads
  split at reads
  · rename_i scheme rest _
    have same := readRest_scheme reads
    rw [same] at web ⊢
    simp only [readRest, web.isFile, web.isSpecial, if_true, Bool.false_eq_true, if_false] at reads
    split at reads
    · cases reads
      exact ⟨_, rfl⟩
    · cases reads
  · cases reads

/-- A URL of the web has a path. -/
theorem isPath_of_read {text : String} {u : Url} (reads : read text = .ok u)
    (web : IsWeb u.scheme) : IsPath u.path := by
  obtain ⟨cs, path⟩ := path_of_read reads web
  rw [path]
  exact isPath_readPath web cs

/-- No dot segment, however spelled. -/
def IsLevel (s : List Char) : Prop := isSingleDot s = false ∧ isDoubleDot s = false

theorem isLevel_nil : IsLevel [] := ⟨rfl, rfl⟩

theorem isLevel_appendPlain {last : Bool} (level : ∀ t ∈ path, IsLevel t) :
    ∀ t ∈ appendPlain false last path s, IsLevel t := by
  have opened : ∀ {path' : List (List Char)}, (∀ t ∈ path', IsLevel t) →
      ∀ t ∈ (if last then path' ++ [[]] else path'), IsLevel t := by
    intro path' level'
    cases last
    · exact level'
    · exact List.forall_mem_append.2 ⟨level', List.forall_mem_singleton.2 isLevel_nil⟩
  rw [appendPlain, shorten_false]
  split
  · exact opened fun t mem => level t (List.dropLast_subset _ mem)
  · split
    · exact opened level
    · rename_i double single
      exact List.forall_mem_append.2
        ⟨level, List.forall_mem_singleton.2 ⟨by simpa using single, by simpa using double⟩⟩

theorem isLevel_readSegments {segments : List (List Char)} (level : ∀ t ∈ path, IsLevel t) :
    ∀ t ∈ readSegments false path segments, IsLevel t := by
  induction segments generalizing path with
  | nil => exact level
  | cons s segments ih =>
    cases segments with
    | nil => exact isLevel_appendPlain level
    | cons => exact ih (isLevel_appendPlain level)

theorem isLevel_readPath (h : IsWeb scheme) (cs : List Char) :
    ∀ t ∈ readPath scheme cs, IsLevel t := by
  have none : ∀ t ∈ ([] : List (List Char)), IsLevel t := nofun
  simp only [readPath, h.isFile, h.isSpecial, if_true, Bool.false_eq_true, if_false]
  split
  · exact List.forall_mem_singleton.2 isLevel_nil
  · exact isLevel_readSegments none
  · exact isLevel_readSegments none

/-- Dot segments are resolved when a URL of the web is read. -/
theorem isLevel_of_read {text : String} {u : Url} (reads : read text = .ok u)
    (web : IsWeb u.scheme) : ∀ s ∈ u.path, IsLevel s := by
  obtain ⟨cs, path⟩ := path_of_read reads web
  rw [path]
  exact isLevel_readPath web cs

end OfflineSchedule.Url
