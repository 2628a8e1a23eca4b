import OfflineSchedule.Http.Answer
import OfflineSchedule.Proofs.Cache.Header
import OfflineSchedule.Proofs.Json.Spelling
/-!
# How answers are classified

The status of a response decides, and behind a 2xx status the body. The body is an envelope if it
is the text of an object with one member `value` and at most one member `stale`, which is a flag;
members of other names are passed over (`Body.IsNamed`). The reader of envelopes takes the payload
without its name as well, as the first item of an array (`Body.IsRow`), and nothing else
(`Body.ofTree_eq_some_iff`).
-/

namespace OfflineSchedule

open Json (IsOnly Piece Record Spaced Tree Value namedMembers occurrences)

/-- The names of the members can be read, and none of them is the given one. -/
def Json.IsMissing (name : String) (members : List (List Piece × Tree)) : Prop :=
  ∃ ms, namedMembers members = some ms ∧ occurrences name ms = 0

namespace Http

variable {b : Body} {t : Tree} {bytes : List UInt8} {members : List (List Piece × Tree)}
  {items : List Tree} {etag tag : Option String} {r : Response} {value : Value} {stale : Bool}

/-! ## Envelopes -/

/-- An envelope: an object with one payload, which can be kept, and a flag if it has one. -/
def Body.IsNamed (b : Body) (t : Tree) : Prop :=
  ∃ members payload, t = .object members ∧ IsOnly "value" payload members ∧
    payload.value? (Json.deepest - 1) = some b.value ∧
    (IsOnly "stale" (.bool b.stale) members ∨ Json.IsMissing "stale" members ∧ b.stale = false)

/-- The fields of an envelope in their order, without names. -/
def Body.IsRow (b : Body) (t : Tree) : Prop :=
  ∃ payload, payload.value? (Json.deepest - 1) = some b.value ∧
    (t = .array [payload, .bool b.stale] ∨ t = .array [payload] ∧ b.stale = false)

theorem bool?_eq_some_iff : t.bool? = some stale ↔ t = .bool stale := by
  cases t <;> simp [Tree.bool?]

/-- A flag that is missing is not set. -/
theorem withDefault_bool?_iff {ms : Record} {name : String} :
    ms.withDefault name false Tree.bool? = some stale ↔
      ms.find? name = some (.bool stale) ∨ ms.find? name = none ∧ stale = false := by
  unfold Record.withDefault
  cases ms.find? name with
  | none => simp [eq_comm]
  | some t => simp [bool?_eq_some_iff]

theorem find?_eq_none_iff {ms : Record} {name : String} :
    ms.find? name = none ↔ occurrences name ms = 0 := by
  induction ms with
  | nil => simp [Record.find?, occurrences]
  | cons m ms ih =>
    obtain ⟨n, t⟩ := m
    by_cases hn : n = name
    · simp [Record.find?, occurrences, hn]
    · simpa [Record.find?, occurrences, hn] using ih

theorem Body.ofTree_object_iff :
    Body.ofTree (.object members) = some b ↔ b.IsNamed (.object members) := by
  obtain ⟨value, stale⟩ := b
  simp only [Body.ofTree, bind, Option.bind_eq_some_iff, Json.record?_object_iff]
  constructor
  · rintro ⟨_, ⟨ms, named, once, rfl⟩, value', required, stale', flag, same⟩
    cases same
    rw [Json.required_filter (by decide)] at required
    rw [Json.withDefault_filter (by decide), withDefault_bool?_iff] at flag
    obtain ⟨payload, found, kept⟩ := Option.bind_eq_some_iff.1 required
    have only : ∀ {name t}, name ∈ Body.fields → ms.find? name = some t →
        IsOnly name t members := fun known found =>
      ⟨ms, named, Json.filter_eq_singleton_iff.2 ⟨once _ known, found⟩⟩
    refine ⟨members, payload, rfl, only (by decide) found, kept, ?_⟩
    rcases flag with found | ⟨absent, default⟩
    · exact .inl (only (by decide) found)
    · exact .inr ⟨⟨ms, named, find?_eq_none_iff.1 absent⟩, default⟩
  · rintro ⟨_, payload, same, ⟨ms, named, only⟩, kept, flag⟩
    cases same
    obtain ⟨once, found⟩ := Json.filter_eq_singleton_iff.1 only
    have required : ms.required "value" (·.value? (Json.deepest - 1)) = some value := by
      rw [Record.required, found]
      exact kept
    have staleOnce : occurrences "stale" ms ≤ 1 ∧
        ms.withDefault "stale" false Tree.bool? = some stale := by
      rw [withDefault_bool?_iff]
      rcases flag with ⟨ms', named', only⟩ | ⟨⟨ms', named', missing⟩, default⟩
      · obtain rfl := Option.some.inj (named.symm.trans named')
        obtain ⟨once, found⟩ := Json.filter_eq_singleton_iff.1 only
        exact ⟨once, .inl found⟩
      · obtain rfl := Option.some.inj (named.symm.trans named')
        exact ⟨by omega, .inr ⟨find?_eq_none_iff.2 missing, default⟩⟩
    refine ⟨_, ⟨ms, named, ?_, rfl⟩, value, ?_, stale, ?_, rfl⟩
    · simpa [Body.fields] using ⟨once, staleOnce.1⟩
    · rwa [Json.required_filter (by decide)]
    · rw [Json.withDefault_filter (by decide)]
      exact staleOnce.2

theorem Body.ofTree_array_iff :
    Body.ofTree (.array items) = some b ↔ b.IsRow (.array items) := by
  obtain ⟨value, stale⟩ := b
  match items with
  | [] => simp [Body.ofTree, IsRow, Tree.record?, Record.required, Record.find?]
  | [payload] =>
    simp [Body.ofTree, IsRow, Tree.record?, Record.required, Record.withDefault, Record.find?,
      Body.fields, Option.bind_eq_some_iff, @eq_comm Bool false]
  | [payload, flag] =>
    simp [Body.ofTree, IsRow, Tree.record?, Record.required, Record.withDefault, Record.find?,
      Body.fields, Option.bind_eq_some_iff, bool?_eq_some_iff]
  | _ :: _ :: _ :: _ => simp [Body.ofTree, IsRow, Tree.record?, Body.fields]

/-- What is read as an envelope. -/
theorem Body.ofTree_eq_some_iff : Body.ofTree t = some b ↔ b.IsNamed t ∨ b.IsRow t := by
  cases t with
  | object members => simp [Body.ofTree_object_iff, IsRow]
  | array items => simp [Body.ofTree_array_iff, IsNamed]
  | _ => simp [Body.ofTree, Tree.record?, IsNamed, IsRow]

/-- The bytes are the text of an envelope. -/
def Body.Spells (b : Body) (bytes : List UInt8) : Prop :=
  ∃ t, Spaced (Text.Utf8.glyphs bytes) t.tokens ∧ (b.IsNamed t ∨ b.IsRow t)

theorem Body.ofBytes_eq_some_iff : Body.ofBytes bytes = some b ↔ b.Spells bytes := by
  simp only [Body.ofBytes, Option.bind_eq_some_iff, Body.ofTree_eq_some_iff, Tree.ofBytes,
    Json.ofGlyphs_eq_some_iff, Body.Spells]

/-! ## Responses -/

theorem outcome_request (sendable : etag.all canSend = true) (r : Response) :
    outcome (request etag (some r)) = outcome r.classify := by
  simp only [request, if_pos sendable]

theorem code_ofStatus (code : Nat) : (RequestError.ofStatus code).code = code := by
  unfold RequestError.ofStatus
  split
  · rename_i notFound
    exact notFound.symm
  · rfl

/-- **How a response is classified.** Let a request that can be sent get a response of any status
with any headers and any body. It is a confirmation if and only if the status is 304. It is a
payload if and only if the status is a 2xx one and the whole body has come and is the text of an
envelope; the payload and whether it is stale are those of the envelope, and the etag is that of the
response. Every other response is a failure, with code 0 behind a 2xx status and with the status
itself otherwise. -/
theorem response_is_classified (sendable : etag.all canSend = true) (r : Response) :
    let o := outcome (request etag (some r))
    (o = .notModified ↔ r.status = 304) ∧
    (∀ value tag stale, o = .success value tag stale ↔
      isSuccess r.status = true ∧ r.isCut = false ∧ tag = r.etag? ∧
        (⟨value, stale⟩ : Body).Spells r.body) ∧
    ∀ code, o = .error code ↔
      if isSuccess r.status then code = 0 ∧ (r.isCut = true ∨ ∀ b : Body, ¬ b.Spells r.body)
      else r.status ≠ 304 ∧ code = r.status := by
  intro o
  have eq : o = outcome r.classify := outcome_request sendable r
  rw [eq, Response.classify]
  by_cases confirmed : r.status = 304
  · simp [confirmed, outcome, isSuccess]
  rw [if_neg confirmed]
  by_cases success : isSuccess r.status = true
  · rw [if_neg (by simp [success])]
    by_cases cut : r.isCut = true
    · rw [if_pos cut]
      simp [confirmed, success, cut, outcome, RequestError.code, transportCode, @eq_comm Nat 0]
    · rw [if_neg cut]
      cases read : Body.ofBytes r.body with
      | none =>
        have absent : ∀ b : Body, ¬ b.Spells r.body := fun b spells => by
          rw [Body.ofBytes_eq_some_iff.2 spells] at read
          cases read
        simp [confirmed, success, cut, absent, outcome, RequestError.code, transportCode,
          @eq_comm Nat 0]
      | some b =>
        have only : ∀ b' : Body, b'.Spells r.body ↔ b = b' := fun b' => by
          rw [← Body.ofBytes_eq_some_iff, read, Option.some.injEq]
        obtain ⟨value, stale⟩ := b
        refine ⟨by simp [outcome, confirmed], fun value' tag stale' => ?_, fun code => ?_⟩
        · simp only [outcome, success, cut, only, Outcome.success.injEq, Body.mk.injEq]
          grind
        · simp [outcome, success, cut, only]
  · rw [if_pos (by simp [success])]
    simp [confirmed, success, outcome, code_ofStatus, @eq_comm Nat r.status]

/-- The bytes of a text of ASCII characters. -/
def asciiBytes (text : String) : List UInt8 := text.toList.map fun c => c.toNat.toUInt8

/-- An envelope with blanks, a flag in front, and a member that no reader knows. -/
theorem untidy_envelope_is_payload :
    let body := asciiBytes " \x7b \"stale\" : true, \"x\":[1e999] , \"value\":[] \x7d"
    let r : Response := ⟨200, [("ETag", asciiBytes " \"v2\" ")], body, false⟩
    (some "v1").all canSend = true ∧
      outcome (request (some "v1") (some r)) = .success (.array []) (some "\"v2\"") true ∧
      (⟨.array [], true⟩ : Body).Spells body ∧ r.etag? = some "\"v2\"" := by
  intro body r
  have sendable : (some "v1").all canSend = true := by decide
  have tag : r.etag? = some "\"v2\"" := by decide +kernel
  have o : outcome (request (some "v1") (some r)) = .success (.array []) r.etag? true := by rfl
  obtain ⟨-, -, -, spells⟩ := ((response_is_classified sendable r).2.1 _ _ _).1 o
  exact ⟨sendable, tag ▸ o, spells, tag⟩

/-- An array that holds the payload is no object with a member `value`, and yet it is taken for an
envelope. So is an object with a byte in it that belongs to no text, in a member that is passed
over. -/
theorem array_is_classified_as_payload :
    let row : Response := ⟨200, [], asciiBytes "[[]]", false⟩
    let broken := asciiBytes "\x7b\"value\":[],\"x\":\"" ++ 0xFF :: asciiBytes "\"\x7d"
    outcome (request none (some row)) = .success (.array []) none false ∧
      Tree.ofBytes row.body = some (.array [.array []]) ∧
      outcome (request none (some ⟨200, [], broken, false⟩)) = .success (.array []) none false ∧
      Text.Utf8.decode? broken = none := by
  exact ⟨rfl, rfl, rfl, rfl⟩

end Http

end OfflineSchedule
