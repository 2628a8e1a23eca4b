import Mathlib.Algebra.BigOperators.Group.Finset.Basic
import OfflineSchedule.Cache.Store
/-!
# A memory with a quota

A memory store as it looks from outside: what it holds is told from the requests that it has served
(`lastSet?`), without a look at its records. The two agree after every request (`Mirrors`). What is
held never takes more bytes than the quota, and only a text that would take more is refused.
-/

namespace OfflineSchedule

namespace Records

variable {key : String} {rs : Records}

theorem find?_erase (key other : String) (rs : Records) :
    find? other (erase key rs) = if key = other then none else find? other rs := by
  by_cases h : key = other
  · rw [if_pos h, h, find?_erase_self]
  · rw [if_neg h, find?_erase_of_ne (Ne.symm h)]

theorem find?_insert (key other value : String) (rs : Records) :
    find? other (insert key value rs) = if key = other then some value else find? other rs := by
  by_cases h : key = other
  · rw [if_pos h, h, find?_insert_self]
  · rw [if_neg h, find?_insert_of_ne (Ne.symm h)]

theorem find?_eq_none_iff : find? key rs = none ↔ ∀ p ∈ rs, p.1 ≠ key := by
  induction rs with
  | nil => simp [find?]
  | cons p rs ih => by_cases h : p.1 = key <;> simp [find?, h, ih]

theorem mem_erase_iff {p : String × String} : p ∈ erase key rs ↔ p ∈ rs ∧ p.1 ≠ key := by
  induction rs with
  | nil => simp [erase]
  | cons q rs ih => by_cases h : q.1 = key <;> simp [erase, h, ih] <;> grind

/-! ## Each key once -/

/-- No key stands twice. -/
def IsDistinct (rs : Records) : Prop := rs.Pairwise fun p q => p.1 ≠ q.1

theorem IsDistinct.erase (h : rs.IsDistinct) (key : String) : (erase key rs).IsDistinct := by
  induction h with
  | nil => exact .nil
  | @cons p rs first _ ih =>
    rw [Records.erase]
    split
    · exact ih
    · exact .cons (fun q hq => first q (mem_erase_iff.1 hq).1) ih

theorem IsDistinct.insert (h : rs.IsDistinct) (key value : String) :
    (insert key value rs).IsDistinct :=
  .cons (fun _ hq => Ne.symm (mem_erase_iff.1 hq).2) (h.erase key)

/-! ## Bytes -/

/-- The bytes of a key with its text, if it has one. -/
def weight (key : String) : Option String → Nat
  | some value => key.utf8ByteSize + value.utf8ByteSize
  | none => 0

/-- The bytes of the records are those of what is found under any keys that include theirs. -/
theorem IsDistinct.sum_weight (h : rs.IsDistinct) {keys : Finset String}
    (all : ∀ p ∈ rs, p.1 ∈ keys) : ∑ key ∈ keys, weight key (find? key rs) = size rs := by
  induction h with
  | nil => simp [find?, weight, size]
  | @cons p rs first _ ih =>
    have mem : p.1 ∈ keys := all p List.mem_cons_self
    have absent : find? p.1 rs = none :=
      find?_eq_none_iff.2 fun q hq => Ne.symm (first q hq)
    have others : ∀ key ∈ keys.erase p.1,
        weight key (find? key (p :: rs)) = weight key (find? key rs) := by
      intro key hk
      rw [find?, if_neg (Ne.symm (Finset.ne_of_mem_erase hk))]
    have sum := ih fun q hq => all q (List.mem_cons_of_mem p hq)
    rw [← Finset.add_sum_erase keys _ mem, absent, weight, Nat.zero_add] at sum
    rw [← Finset.add_sum_erase keys _ mem, Finset.sum_congr rfl others, sum]
    simp [find?, weight, size]

/-- A record that goes sets its bytes free. -/
theorem IsDistinct.size_erase (h : rs.IsDistinct) (key : String) :
    size (Records.erase key rs) + weight key (find? key rs) = size rs := by
  induction h with
  | nil => rfl
  | @cons p rs first _ ih =>
    by_cases hk : p.1 = key
    · have absent : find? key rs = none :=
        find?_eq_none_iff.2 fun q hq => hk ▸ Ne.symm (first q hq)
      rw [absent, weight, Nat.add_zero] at ih
      simp [Records.erase, find?, hk, weight, size, ih, Nat.add_comm]
    · simp [Records.erase, find?, hk, size, ← ih, Nat.add_assoc]

end Records

namespace Store

/-! ## Requests -/

/-- What a store is asked for. -/
inductive Request where
  | get (key : String)
  | set (key value : String)
  | remove (key : String)
deriving DecidableEq, Repr

def Request.key : Request → String
  | get key | set key _ | remove key => key

/-- What it answers: the text that it was asked for, or why it refuses. -/
abbrev Reply := Except StoreError (Option String)

/-- Serves a request. A store that refuses stays as it is. -/
def serve (s : Store) : Request → Reply × Store
  | .get key => (s.get key, s)
  | .set key value =>
    match s.set key value with
    | .ok s' => (.ok none, s')
    | .error e => (.error e, s)
  | .remove key =>
    match s.remove key with
    | .ok s' => (.ok none, s')
    | .error e => (.error e, s)

/-- What a store has been asked for, the latest request first, each with the answer. -/
abbrev Log := List (Request × Reply)

/-- The requests in the log lead from `first` to `s`. -/
inductive Past (first : Store) : Log → Store → Prop where
  | nil : Past first [] first
  | serve {log : Log} {s : Store} (past : Past first log s) (q : Request) :
      Past first ((q, (s.serve q).1) :: log) (s.serve q).2

/-! ## What the log tells -/

/-- The text that a key was set to last, unless the key was removed since. What was refused does not
count. -/
def lastSet? (key : String) : Log → Option String
  | [] => none
  | (.set k value, .ok _) :: log => if k = key then some value else lastSet? key log
  | (.remove k, .ok _) :: log => if k = key then none else lastSet? key log
  | _ :: log => lastSet? key log

/-- The keys of all requests. -/
def keys (log : Log) : Finset String := (log.map (·.1.key)).toFinset

/-- The bytes that some keys and their texts take. -/
def bytes (log : Log) (keys : Finset String) : Nat :=
  ∑ key ∈ keys, Records.weight key (lastSet? key log)

/-- The bytes that the other keys and their texts take. -/
def bytesBeside (key : String) (log : Log) : Nat := bytes log ((keys log).erase key)

variable {log : Log} {s : Store} {quota : Option Nat} {key value : String}

theorem mem_keys_of_lastSet? (h : lastSet? key log ≠ none) : key ∈ keys log := by
  induction log with
  | nil => exact absurd rfl h
  | cons entry log ih =>
    rw [keys, List.map_cons, List.toFinset_cons, Finset.mem_insert]
    by_cases hk : key = entry.1.key
    · exact .inl hk
    · refine .inr (ih ?_)
      unfold lastSet? at h
      split at h <;> simp_all [Request.key, eq_comm]

/-! ## A memory serves requests -/

/-- A memory that does not fail takes a text, or the text exceeds the quota. -/
theorem set_memory (kind : s.kind = .memory quota) (sound : s.failing = []) (key value : String) :
    let used := Records.size (s.records.erase key)
    let requested := key.utf8ByteSize + value.utf8ByteSize
    (∃ limit, quota = some limit ∧ limit < used + requested ∧
      s.set key value = .error (.quotaExceeded requested used limit)) ∨
    (∀ limit, quota = some limit → used + requested ≤ limit) ∧
      s.set key value = .ok { s with records := s.records.insert key value } := by
  intro used requested
  have enabled : s.kind ≠ .disabled := by rw [kind]; exact nofun
  cases quota with
  | none => exact .inr ⟨nofun, by simp [set, sound, checkQuota, kind, Except.map]⟩
  | some limit =>
    by_cases exceeds : limit < used + requested
    · exact .inl ⟨limit, rfl, exceeds,
        by simp [set, sound, checkQuota, kind, exceeds, used, requested, Except.map]⟩
    · refine .inr ⟨fun _ h => ?_, ?_⟩
      · cases h
        omega
      · simp [set, sound, checkQuota, kind, exceeds, used, requested, Except.map]

/-! ## What it holds -/

/-- The log tells what the store holds, which is within the quota. -/
structure Mirrors (quota : Option Nat) (log : Log) (s : Store) : Prop where
  kind : s.kind = .memory quota
  sound : s.failing = []
  distinct : s.records.IsDistinct
  found : ∀ key, s.records.find? key = lastSet? key log
  within : ∀ limit, quota = some limit → s.records.size ≤ limit

namespace Mirrors

theorem of_new (quota : Option Nat) : Mirrors quota [] { kind := .memory quota } :=
  ⟨rfl, rfl, .nil, fun _ => rfl, fun _ _ => Nat.zero_le _⟩

theorem get (h : Mirrors quota log s) (key : String) : s.get key = .ok (lastSet? key log) := by
  simp [Store.get, h.sound, h.found]

theorem remove (h : Mirrors quota log s) (key : String) :
    s.remove key = .ok { s with records := s.records.erase key } := by
  simp [Store.remove, h.sound]

theorem mem_keys (h : Mirrors quota log s) {p : String × String} (hp : p ∈ s.records) :
    p.1 ∈ keys log := by
  refine mem_keys_of_lastSet? fun absent => ?_
  rw [← h.found] at absent
  exact Records.find?_eq_none_iff.1 absent p hp rfl

theorem bytes_keys (h : Mirrors quota log s) : bytes log (keys log) = s.records.size := by
  rw [bytes, ← h.distinct.sum_weight fun _ => h.mem_keys]
  exact Finset.sum_congr rfl fun key _ => by rw [h.found]

theorem bytesBeside_eq (h : Mirrors quota log s) (key : String) :
    bytesBeside key log = Records.size (s.records.erase key) := by
  have all : ∀ p ∈ s.records.erase key, p.1 ∈ (keys log).erase key := by
    intro p hp
    obtain ⟨mem, ne⟩ := Records.mem_erase_iff.1 hp
    exact Finset.mem_erase.2 ⟨ne, h.mem_keys mem⟩
  rw [bytesBeside, bytes, ← (h.distinct.erase key).sum_weight all]
  refine Finset.sum_congr rfl fun other ho => ?_
  rw [Records.find?_erase_of_ne (Finset.ne_of_mem_erase ho), h.found]

/-- The answer to a request, and what the store is then. -/
theorem serve (h : Mirrors quota log s) (q : Request) :
    Mirrors quota ((q, (s.serve q).1) :: log) (s.serve q).2 := by
  cases q with
  | get key =>
    have found : ∀ other, s.records.find? other =
        lastSet? other ((.get key, (s.serve (.get key)).1) :: log) := by
      intro other
      rw [h.found, lastSet?] <;> exact nofun
    exact ⟨h.kind, h.sound, h.distinct, found, h.within⟩
  | remove key =>
    simp only [Store.serve, h.remove]
    refine ⟨h.kind, h.sound, h.distinct.erase key, fun other => ?_, fun limit hl => ?_⟩
    · rw [Records.find?_erase, h.found, lastSet?]
    · have free := h.distinct.size_erase key
      have within := h.within limit hl
      show (s.records.erase key).size ≤ limit
      omega
  | set key value =>
    rcases set_memory h.kind h.sound key value with ⟨limit, -, -, refused⟩ | ⟨fits, taken⟩
    · simp only [Store.serve, refused]
      exact ⟨h.kind, h.sound, h.distinct, fun other => by simp [lastSet?, h.found], h.within⟩
    · -- The bytes that count are those beside the replaced record, as in the check of the quota.
      simp only [Store.serve, taken]
      refine ⟨h.kind, h.sound, h.distinct.insert key value, fun other => ?_, fun limit hl => ?_⟩
      · rw [Records.find?_insert, h.found, lastSet?]
      · have fits := fits limit hl
        show (s.records.insert key value).size ≤ limit
        rw [Records.insert, Records.size]
        omega

end Mirrors

theorem Past.mirrors (past : Past { kind := .memory quota } log s) : Mirrors quota log s := by
  induction past with
  | nil => exact .of_new quota
  | serve _ q ih => exact ih.serve q

/-! ## What is refused, and what makes room -/

/-- Only a text that exceeds the quota is refused. -/
theorem Mirrors.refused_iff (h : Mirrors quota log s) (q : Request) (e : StoreError) :
    (s.serve q).1 = .error e ↔ ∃ key value limit, q = .set key value ∧ quota = some limit ∧
      limit < bytesBeside key log + (key.utf8ByteSize + value.utf8ByteSize) ∧
      e = .quotaExceeded (key.utf8ByteSize + value.utf8ByteSize) (bytesBeside key log) limit := by
  cases q with
  | get key => simp [Store.serve, h.get]
  | remove key => simp [Store.serve, h.remove]
  | set key value =>
    have used := h.bytesBeside_eq key
    rcases set_memory h.kind h.sound key value with
      ⟨limit, hq, exceeds, refused⟩ | ⟨fits, taken⟩
    · simp only [Store.serve, refused, Except.error.injEq]
      constructor
      · rintro rfl
        exact ⟨key, value, limit, rfl, hq, used ▸ exceeds, by rw [used]⟩
      · rintro ⟨_, _, _, same, hq', -, rfl⟩
        cases same
        rw [used, Option.some.inj (hq.symm.trans hq')]
    · simp only [Store.serve, taken, reduceCtorEq, false_iff]
      rintro ⟨_, _, limit, same, hq, exceeds, -⟩
      cases same
      have := fits limit hq
      omega

theorem serve_refused {q : Request} {e : StoreError} (refused : (s.serve q).1 = .error e) :
    (s.serve q).2 = s := by
  cases q with
  | get key => rfl
  | set key value =>
    unfold serve at refused ⊢
    cases h : s.set key value <;> simp [h] at refused ⊢
  | remove key =>
    unfold serve at refused ⊢
    cases h : s.remove key <;> simp [h] at refused ⊢

/-- A text is taken if it fits beside all that is held. -/
theorem Mirrors.taken (h : Mirrors quota log s)
    (fits : ∀ limit, quota = some limit →
      s.records.size + (key.utf8ByteSize + value.utf8ByteSize) ≤ limit) :
    s.set key value = .ok { s with records := s.records.insert key value } := by
  rcases set_memory h.kind h.sound key value with ⟨limit, hq, exceeds, -⟩ | ⟨-, taken⟩
  · have fits := fits limit hq
    have le := h.distinct.size_erase key
    omega
  · exact taken

/-- The bytes of a record that is removed can be used again. -/
theorem Mirrors.taken_after_remove (h : Mirrors quota log s) {old other : String}
    (held : lastSet? key log = some old)
    (fits : ∀ limit, quota = some limit →
      bytes log (keys log) + (other.utf8ByteSize + value.utf8ByteSize) ≤
        limit + (key.utf8ByteSize + old.utf8ByteSize)) :
    ∃ s', (s.serve (.remove key)).2.set other value = .ok s' := by
  refine ⟨_, (h.serve (.remove key)).taken fun limit hq => ?_⟩
  have fits := fits limit hq
  have free := h.distinct.size_erase key
  rw [h.bytes_keys] at fits
  rw [h.found, held, Records.weight] at free
  simp only [Store.serve, h.remove]
  omega

/-- So can those that a text gains over the one that it replaces, which is always taken. -/
theorem Mirrors.taken_after_overwrite (h : Mirrors quota log s) {old new : String}
    (held : lastSet? key log = some old) (shorter : new.utf8ByteSize ≤ old.utf8ByteSize) :
    (s.serve (.set key new)).1 = .ok none ∧ ∀ other value : String,
      (∀ limit, quota = some limit →
        bytes log (keys log) + (other.utf8ByteSize + value.utf8ByteSize) + new.utf8ByteSize ≤
          limit + old.utf8ByteSize) →
      ∃ s', (s.serve (.set key new)).2.set other value = .ok s' := by
  have free := h.distinct.size_erase key
  rw [h.found, held, Records.weight] at free
  rcases set_memory h.kind h.sound key new with ⟨limit, hq, exceeds, -⟩ | ⟨-, taken⟩
  · have within := h.within limit hq
    omega
  · refine ⟨by simp only [Store.serve, taken], fun other value fits => ?_⟩
    refine ⟨_, (h.serve (.set key new)).taken fun limit hq => ?_⟩
    have fits := fits limit hq
    rw [h.bytes_keys] at fits
    simp only [Store.serve, taken, Records.insert, Records.size]
    omega

/-- **A memory is a map with a quota.** Let a memory store that starts empty, with any quota or
none, serve any requests in any order. What it holds never takes more bytes than the quota. A key has
the text that it was set to last, unless it was removed since. A request is refused exactly if it
sets a key to a text that would exceed the quota, the record that it replaces not counted, and the
error says by how much; then nothing changes. The bytes of a record that is removed can be used for
any other at once, and so can those that are saved by a shorter text, which is always taken. -/
theorem memory_is_map_with_quota (past : Past { kind := .memory quota } log s) :
    (∀ limit, quota = some limit → bytes log (keys log) ≤ limit) ∧
    (∀ key, s.get key = .ok (lastSet? key log)) ∧
    (∀ q e, (s.serve q).1 = .error e ↔ ∃ key value limit, q = .set key value ∧
      quota = some limit ∧
      limit < bytesBeside key log + (key.utf8ByteSize + value.utf8ByteSize) ∧
      e = .quotaExceeded (key.utf8ByteSize + value.utf8ByteSize) (bytesBeside key log) limit) ∧
    (∀ q e, (s.serve q).1 = .error e → (s.serve q).2 = s) ∧
    ∀ key old, lastSet? key log = some old →
      (∀ other value : String,
        (∀ limit, quota = some limit →
          bytes log (keys log) + (other.utf8ByteSize + value.utf8ByteSize) ≤
            limit + (key.utf8ByteSize + old.utf8ByteSize)) →
        ∃ s', (s.serve (.remove key)).2.set other value = .ok s') ∧
      ∀ new : String, new.utf8ByteSize ≤ old.utf8ByteSize →
        (s.serve (.set key new)).1 = .ok none ∧ ∀ other value : String,
          (∀ limit, quota = some limit →
            bytes log (keys log) + (other.utf8ByteSize + value.utf8ByteSize) +
              new.utf8ByteSize ≤ limit + old.utf8ByteSize) →
          ∃ s', (s.serve (.set key new)).2.set other value = .ok s' := by
  have h := past.mirrors
  refine ⟨fun limit hq => ?_, h.get, h.refused_iff, fun _ _ => serve_refused,
    fun key old held => ⟨fun _ _ => h.taken_after_remove held,
      fun new => h.taken_after_overwrite held⟩⟩
  rw [h.bytes_keys]
  exact h.within limit hq

/-- Sixteen bytes hold a key of two bytes with a text of ten, and not another record of eleven. The
text stays when it cannot be replaced by a longer one, and once it is replaced by a shorter one there
is room for a record of nine bytes. -/
theorem shorter_text_makes_room :
    let requests : List Request := [.set "é" "0123456789", .set "b" "0123456789",
      .set "é" "0123456789abcde"]
    ∃ log s, Past { kind := .memory (some 16) } log s ∧ log.reverse.map (·.1) = requests ∧
      log.map (·.2) = [.error (.quotaExceeded 17 0 16), .error (.quotaExceeded 11 12 16),
        .ok none] ∧
      s.get "é" = .ok (some "0123456789") ∧ bytes log (keys log) ≤ 16 ∧
      (s.serve (.set "é" "01234")).1 = .ok none ∧
      ∃ s', (s.serve (.set "é" "01234")).2.set "b" "01234567" = .ok s' := by
  intro requests
  have past : Past { kind := .memory (some 16) } _ _ :=
    ((Past.nil.serve (.set "é" "0123456789")).serve (.set "b" "0123456789")).serve
      (.set "é" "0123456789abcde")
  obtain ⟨within, got, -, -, room⟩ := memory_is_map_with_quota past
  obtain ⟨taken, later⟩ := (room "é" "0123456789" (by decide)).2 "01234" (by decide)
  refine ⟨_, _, past, rfl, by decide, (got "é").trans (by decide), within 16 rfl, taken,
    later "b" "01234567" fun limit hq => ?_⟩
  cases hq
  decide

end Store

end OfflineSchedule
