/-!
# Record stores

A flat map from text to text. A memory store may have a quota on the bytes that it holds, a
database keeps its records when it is opened again, and a disabled store keeps nothing. Any
operation of a store may be failing; a failed operation changes nothing.
-/

namespace OfflineSchedule

/-! ## Records -/

/-- Keys and their texts, each key once. -/
abbrev Records := List (String × String)

namespace Records

def find? (key : String) : Records → Option String
  | [] => none
  | (k, v) :: rs => if k = key then some v else find? key rs

def erase (key : String) : Records → Records
  | [] => []
  | (k, v) :: rs => if k = key then erase key rs else (k, v) :: erase key rs

def insert (key value : String) (rs : Records) : Records := (key, value) :: erase key rs

/-- The bytes of all keys and texts. -/
def size : Records → Nat
  | [] => 0
  | (k, v) :: rs => k.utf8ByteSize + v.utf8ByteSize + size rs

theorem find?_erase_self (key : String) (rs : Records) : find? key (erase key rs) = none := by
  induction rs with
  | nil => rfl
  | cons p rs ih => by_cases h : p.1 = key <;> simp [erase, find?, h, ih]

theorem find?_erase_of_ne {key other : String} (h : other ≠ key) (rs : Records) :
    find? other (erase key rs) = find? other rs := by
  induction rs with
  | nil => rfl
  | cons p rs ih =>
    by_cases hk : p.1 = key
    · simp [erase, find?, hk, ih, Ne.symm h]
    · by_cases ho : p.1 = other <;> simp [erase, find?, hk, ho, ih, h]

theorem find?_insert_self (key value : String) (rs : Records) :
    find? key (insert key value rs) = some value := by
  simp [insert, find?]

theorem find?_insert_of_ne {key other : String} (h : other ≠ key) (value : String) (rs : Records) :
    find? other (insert key value rs) = find? other rs := by
  simp [insert, find?, Ne.symm h, find?_erase_of_ne h]

end Records

/-! ## Stores -/

inductive StoreKind where
  /-- Keeps nothing. -/
  | disabled
  /-- Starts empty, with an optional limit on its size in bytes. -/
  | memory (quota : Option Nat)
  /-- Keeps its records when it is opened again. -/
  | database
deriving DecidableEq, Repr

inductive StoreOperation where
  | get
  | set
  | remove
deriving DecidableEq, Repr

structure Store where
  kind : StoreKind
  records : Records := []
  /-- The operations that fail at the moment. -/
  failing : List StoreOperation := []
deriving DecidableEq, Repr

inductive StoreError where
  | quotaExceeded (requested used quota : Nat)
  /-- The operation is failing. -/
  | failing (operation : StoreOperation)
deriving DecidableEq, Repr

def StoreOperation.name : StoreOperation → String
  | get => "get"
  | set => "set"
  | remove => "remove"

def StoreError.message : StoreError → String
  | quotaExceeded requested used quota =>
    "Storage quota exceeded: " ++ toString requested ++ " bytes requested, " ++ toString used ++
      " of " ++ toString quota ++ " in use"
  | failing operation => "injected " ++ operation.name ++ " failure"

namespace Store

/-- The text kept under a key. -/
def get (s : Store) (key : String) : Except StoreError (Option String) :=
  if .get ∈ s.failing then .error (.failing .get) else .ok (s.records.find? key)

/-- Whether `value` may be kept under `key`. The record that it replaces does not count. -/
def checkQuota (s : Store) (key value : String) : Except StoreError Unit :=
  match s.kind with
  | .memory (some quota) =>
    let used := (s.records.erase key).size
    let requested := key.utf8ByteSize + value.utf8ByteSize
    if used + requested > quota then .error (.quotaExceeded requested used quota) else .ok ()
  | _ => .ok ()

/-- Keeps `value` under `key`. -/
def set (s : Store) (key value : String) : Except StoreError Store :=
  if .set ∈ s.failing then .error (.failing .set)
  else if s.kind = .disabled then .ok s
  else (s.checkQuota key value).map fun _ => { s with records := s.records.insert key value }

/-- Removes the record under `key`, if there is one. -/
def remove (s : Store) (key : String) : Except StoreError Store :=
  if .remove ∈ s.failing then .error (.failing .remove)
  else .ok { s with records := s.records.erase key }

/-- The store after it is closed and opened again. -/
def reopen (s : Store) : Store :=
  match s.kind with
  | .database => { s with failing := [] }
  | kind => { kind }

end Store

end OfflineSchedule
