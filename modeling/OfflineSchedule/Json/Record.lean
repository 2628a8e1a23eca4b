import OfflineSchedule.Json.Writer
/-!
# Records

Structures with named fields as JSON. A record is read from an object, in which a field may stand
once at most and members of other names are passed over, or from an array of the fields in their
order. It is written as an object.
-/

namespace OfflineSchedule.Json

/-- The fields that are present. -/
abbrev Record := List (String × Tree)

/-! ## Reading -/

/-- The members with decoded names. -/
def namedMembers : List (List Piece × Tree) → Option Record
  | [] => some []
  | (name, t) :: ms =>
    match Piece.text? name, namedMembers ms with
    | some name, some ms => some ((name, t) :: ms)
    | _, _ => none

/-- Whether no field stands twice. -/
def isOnce : Record → Bool
  | [] => true
  | (name, _) :: ms => !ms.any (·.1 = name) && isOnce ms

/-- Reads the fields of the given names. -/
def Tree.record? (names : List String) : Tree → Option Record
  | .object members =>
    match namedMembers members with
    | some ms =>
      let ms := ms.filter fun m => names.contains m.1
      if isOnce ms then some ms else none
    | none => none
  | .array items => if items.length ≤ names.length then some (names.zip items) else none
  | _ => none

namespace Record

def find? (r : Record) (name : String) : Option Tree :=
  match r with
  | [] => none
  | (n, t) :: ms => if n = name then some t else find? ms name

/-- A field that has to be there. -/
def required (r : Record) (name : String) (read : Tree → Option α) : Option α :=
  (r.find? name).bind read

/-- A field that may be missing. -/
def withDefault (r : Record) (name : String) (default : α) (read : Tree → Option α) : Option α :=
  match r.find? name with
  | some t => read t
  | none => some default

end Record

namespace Tree

def text? : Tree → Option String
  | .string ps => Piece.text? ps
  | _ => none

def bool? : Tree → Option Bool
  | .bool b => some b
  | _ => none

/-- Reads something or `null`. -/
def nullable? (read : Tree → Option α) : Tree → Option (Option α)
  | .null => some none
  | t => (read t).map some

/-- Reads each of the given trees. -/
def each? (read : Tree → Option α) : List Tree → Option (List α)
  | [] => some []
  | t :: ts =>
    match read t, each? read ts with
    | some a, some as => some (a :: as)
    | _, _ => none

def list? (read : Tree → Option α) : Tree → Option (List α)
  | .array items => each? read items
  | _ => none

end Tree

/-! ## Writing -/

/-- A field that is left out if there is nothing to write. -/
def optionalField (name : String) : Option String → List (String × Value)
  | some s => [(name, .string s)]
  | none => []

def Value.ofTexts (texts : List String) : Value := .array (texts.map .string)

end OfflineSchedule.Json
