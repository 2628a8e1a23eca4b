import OfflineSchedule.Cache.Envelope
/-!
# A header is that of its envelope

The header of an envelope can be read without its value, by a reader of its own: the value is a
member like any other that it does not know, and whatever stands there is passed over. On an object
the two readers agree, since each of them asks of the members only that its own names do not stand
twice among them, and finds the same trees under them (`record?_object_iff`). What an envelope has
beside its header is one member `value` of the right shape (`get_iff_header`).

On an array they do not: a header is read from two items, an envelope from three.
-/

namespace OfflineSchedule

open Json (Tree Piece Record namedMembers isOnce)

/-! ## Members -/

namespace Json

variable {α : Type} {members : List (List Piece × Tree)} {ms r : Record} {fields : List String}
  {name : String} {t : Tree}

/-- How many members have the name. -/
def occurrences (name : String) (ms : Record) : Nat := (ms.map (·.1)).count name

theorem isOnce_iff : isOnce r = true ↔ (r.map (·.1)).Nodup := by
  induction r with
  | nil => simp [isOnce]
  | cons m ms ih =>
    have absent : (∀ a t, (a, t) ∈ ms → a ≠ m.1) ↔ ∀ t, (m.1, t) ∉ ms := by grind
    simp [isOnce, ih, absent]

/-- None of the fields stands twice if each of their names does not. -/
theorem isOnce_filter_iff :
    isOnce (ms.filter fun m => fields.contains m.1) = true ↔
      ∀ name ∈ fields, occurrences name ms ≤ 1 := by
  have kept : (ms.filter fun m => fields.contains m.1).map (·.1) =
      (ms.map (·.1)).filter (fields.contains ·) := by
    simp [List.filter_map, Function.comp_def]
  rw [isOnce_iff, kept, List.nodup_iff_count]
  constructor
  · intro once name known
    have le := once name
    rwa [List.count_filter (by simpa using known)] at le
  · intro once name
    by_cases known : name ∈ fields
    · rw [List.count_filter (by simpa using known)]
      exact once name known
    · rw [List.count_eq_zero.2 (by simp [known])]
      exact Nat.zero_le 1

/-- What is read from an object: its members of the given names, none of which stands twice. -/
theorem record?_object_iff :
    (Tree.object members).record? fields = some r ↔
      ∃ ms, namedMembers members = some ms ∧ (∀ name ∈ fields, occurrences name ms ≤ 1) ∧
        (ms.filter fun m => fields.contains m.1) = r := by
  cases named : namedMembers members with
  | none => simp [Tree.record?, named]
  | some ms =>
    simp only [Tree.record?, named, Option.ite_none_right_eq_some, isOnce_filter_iff,
      Option.some.injEq, exists_eq_left']

/-- Members of other names do not count for what is found. -/
theorem find?_filter (known : name ∈ fields) :
    Record.find? (ms.filter fun m => fields.contains m.1) name = ms.find? name := by
  induction ms with
  | nil => rfl
  | cons m ms ih =>
    obtain ⟨n, t⟩ := m
    rw [List.filter_cons, Record.find?.eq_def ((n, t) :: ms)]
    by_cases hn : n = name
    · simp [Record.find?, hn, known]
    · by_cases other : fields.contains n
      · simp only [other, if_true, Record.find?, hn, if_false]
        exact ih
      · simp only [other, hn]
        exact ih

theorem required_filter (known : name ∈ fields) (read : Tree → Option α) :
    Record.required (ms.filter fun m => fields.contains m.1) name read = ms.required name read := by
  simp only [Record.required, find?_filter known]

theorem withDefault_filter (known : name ∈ fields) (default : α) (read : Tree → Option α) :
    Record.withDefault (ms.filter fun m => fields.contains m.1) name default read =
      ms.withDefault name default read := by
  simp only [Record.withDefault, find?_filter known]

def Tree.isObject : Tree → Bool
  | .object _ => true
  | _ => false

theorem exists_members (h : t.isObject = true) : ∃ members, t = .object members := by
  cases t with
  | object members => exact ⟨members, rfl⟩
  | _ => simp [Tree.isObject] at h

/-- One member has the name, and `t` stands there. -/
def IsOnly (name : String) (t : Tree) (members : List (List Piece × Tree)) : Prop :=
  ∃ ms, namedMembers members = some ms ∧ ms.filter (·.1 = name) = [(name, t)]

theorem filter_eq_nil_iff : ms.filter (·.1 = name) = [] ↔ occurrences name ms = 0 := by
  have absent : (∀ a t, (a, t) ∈ ms → a ≠ name) ↔ ∀ t, (name, t) ∉ ms := by grind
  simp [occurrences, List.count_eq_zero, absent]

/-- A name that stands once at most, and has been found. -/
theorem filter_eq_singleton_iff :
    ms.filter (·.1 = name) = [(name, t)] ↔ occurrences name ms ≤ 1 ∧ ms.find? name = some t := by
  induction ms with
  | nil => simp [Record.find?]
  | cons m ms ih =>
    obtain ⟨n, u⟩ := m
    by_cases hn : n = name
    · subst hn
      have count : occurrences n ((n, u) :: ms) = occurrences n ms + 1 := by simp [occurrences]
      rw [count, List.filter_cons_of_pos (by simp), List.cons.injEq, filter_eq_nil_iff]
      simp [Record.find?, and_comm]
    · have count : occurrences name ((n, u) :: ms) = occurrences name ms := by
        simp [occurrences, hn]
      rw [count, List.filter_cons_of_neg (by simp [hn]), ih, Record.find?, if_neg hn]

end Json

open Json

/-! ## The two readers -/

variable {α : Type} {read : Tree → Option α} {members : List (List Piece × Tree)} {h : Header}
  {e : Envelope α}

/-- The header among some members, each name of which counts once. -/
def Header.Among (h : Header) (ms : Record) : Prop :=
  ms.required "instance" Tree.text? = some h.con ∧
    ms.withDefault "etag" none (Tree.nullable? Tree.text?) = some h.etag

theorem Header.ofTree_object_iff :
    Header.ofTree (.object members) = some h ↔
      ∃ ms, namedMembers members = some ms ∧ (∀ name ∈ Header.fields, occurrences name ms ≤ 1) ∧
        h.Among ms := by
  obtain ⟨con, etag⟩ := h
  simp only [Header.ofTree, bind, Option.bind_eq_some_iff, record?_object_iff, Among]
  constructor
  · rintro ⟨_, ⟨ms, named, once, rfl⟩, con', hc, etag', he, same⟩
    rw [required_filter (by decide)] at hc
    rw [withDefault_filter (by decide)] at he
    cases same
    exact ⟨ms, named, once, hc, he⟩
  · rintro ⟨ms, named, once, hc, he⟩
    refine ⟨_, ⟨ms, named, once, rfl⟩, con, ?_, etag, ?_, rfl⟩
    · rwa [required_filter (by decide)]
    · rwa [withDefault_filter (by decide)]

theorem Envelope.ofTree_object_iff :
    Envelope.ofTree read (.object members) = some e ↔
      ∃ ms, namedMembers members = some ms ∧ (∀ name ∈ Envelope.fields, occurrences name ms ≤ 1) ∧
        e.toHeader.Among ms ∧ ms.required "value" read = some e.value := by
  obtain ⟨⟨con, etag⟩, value⟩ := e
  simp only [Envelope.ofTree, bind, Option.bind_eq_some_iff, record?_object_iff, Header.Among]
  constructor
  · rintro ⟨_, ⟨ms, named, once, rfl⟩, con', hc, etag', he, value', hv, same⟩
    rw [required_filter (by decide)] at hc hv
    rw [withDefault_filter (by decide)] at he
    cases same
    exact ⟨ms, named, once, ⟨hc, he⟩, hv⟩
  · rintro ⟨ms, named, once, ⟨hc, he⟩, hv⟩
    refine ⟨_, ⟨ms, named, once, rfl⟩, con, ?_, etag, ?_, value, ?_, rfl⟩
    · rwa [required_filter (by decide)]
    · rwa [withDefault_filter (by decide)]
    · rwa [required_filter (by decide)]

/-- An envelope is its header and one member `value`. -/
theorem Envelope.ofTree_object_iff_header :
    Envelope.ofTree read (.object members) = some e ↔
      Header.ofTree (.object members) = some e.toHeader ∧
        ∃ t, IsOnly "value" t members ∧ read t = some e.value := by
  rw [Envelope.ofTree_object_iff, Header.ofTree_object_iff]
  have split : ∀ ms : Record, (∀ name ∈ Envelope.fields, occurrences name ms ≤ 1) ↔
      (∀ name ∈ Header.fields, occurrences name ms ≤ 1) ∧ occurrences "value" ms ≤ 1 := by
    simp [Envelope.fields, Header.fields, and_assoc]
  constructor
  · rintro ⟨ms, named, once, among, hv⟩
    obtain ⟨t, found, hv⟩ := Option.bind_eq_some_iff.1 hv
    obtain ⟨once, single⟩ := (split ms).1 once
    exact ⟨⟨ms, named, once, among⟩, t,
      ⟨ms, named, filter_eq_singleton_iff.2 ⟨single, found⟩⟩, hv⟩
  · rintro ⟨⟨ms, named, once, among⟩, t, ⟨ms', named', only⟩, hv⟩
    obtain rfl := Option.some.inj (named.symm.trans named')
    obtain ⟨single, found⟩ := filter_eq_singleton_iff.1 only
    exact ⟨ms, named, (split ms).2 ⟨once, single⟩, among,
      Option.bind_eq_some_iff.2 ⟨t, found, hv⟩⟩

/-- An envelope that is an array has three items, which is one too many for a header. -/
theorem header_of_array_envelope {items : List Tree}
    (got : Envelope.ofTree read (.array items) = some e) : Header.ofTree (.array items) = none := by
  simp only [Envelope.ofTree, bind, Option.bind_eq_some_iff] at got
  obtain ⟨r, fields, -, -, -, -, value, required, -⟩ := got
  have three : 3 ≤ items.length := by
    match items with
    | [] | [_] | [_, _] =>
      simp [Tree.record?, Envelope.fields] at fields
      subst fields
      simp [Record.required, Record.find?] at required
    | _ :: _ :: _ :: _ => simp
  have two : ¬ items.length ≤ 2 := by omega
  simp [Header.ofTree, Tree.record?, Header.fields, two]

namespace Cache

variable {s : Store} {key text : String}

/-- **The readers of a record agree.** Let the text that is kept under a key be a JSON object,
whatever its members are, in whatever order and however they are written. An envelope of any
resource is read from it if and only if its header is read, with the same con and the same etag,
and one member is named `value` and holds the envelope's value in the shape of the resource. -/
theorem get_iff_header (kept : text? s key = some text)
    (object : Tree.ofText text = some (.object members)) (r : Resource) (e : Envelope r.Stored) :
    get r.storedOfTree s key = some e ↔
      header s key = some e.toHeader ∧
        ∃ t, IsOnly "value" t members ∧ r.storedOfTree t = some e.value := by
  have got : get r.storedOfTree s key = Envelope.ofTree r.storedOfTree (.object members) := by
    simp [get, kept, object]
  have headed : header s key = Header.ofTree (.object members) := by
    simp [header, kept, object]
  rw [got, headed]
  exact Envelope.ofTree_object_iff_header

/-- A record with its members in another order, an escape in a name and in the etag, and members
that no reader knows, which stand twice and hold what could not be kept. -/
theorem untidy_record_is_read :
    let text := " \x7b\"value\" : [], \"x\":\x7b\"etag\":[1e999]\x7d, \"\\u0065tag\":\"v\\u0031\"," ++
      " \"x\":\"\\ud800\" , \"instance\":\"a\"\x7d"
    let s : Store := { kind := .database
                       records := ({} : Records).insert (recordKey "pages") text }
    let e : Envelope (Resource.Stored .pages) := ⟨⟨"a", some "v1"⟩, []⟩
    text? s "pages" = some text ∧ (∃ members, Tree.ofText text = some (.object members)) ∧
      get Resource.pages.storedOfTree s "pages" = some e ∧
      header s "pages" = some ⟨"a", some "v1"⟩ := by
  intro text s e
  have kept : text? s "pages" = some text := by decide
  have isObject : (Tree.ofText text).any Tree.isObject = true := by decide
  have got : get Resource.pages.storedOfTree s "pages" = some e := by decide
  obtain ⟨_, object, isObject⟩ := (Option.any_eq_true _ _).1 isObject
  obtain ⟨members, rfl⟩ := exists_members isObject
  exact ⟨kept, ⟨members, object⟩, got, ((get_iff_header kept object .pages e).1 got).1⟩

end Cache

end OfflineSchedule
