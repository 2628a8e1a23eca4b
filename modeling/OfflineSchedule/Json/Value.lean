import OfflineSchedule.Json.Double
import OfflineSchedule.Json.Tree
/-!
# JSON values

What a JSON text means once all of it is kept: numbers are evaluated, strings decoded, and an
object is a map, in which the last of several members with one name counts. A kept value may be
nested at most `deepest` levels deep.
-/

namespace OfflineSchedule.Json

inductive Number where
  /-- A number without fraction and exponent that fits into 64 bits. -/
  | int (n : Int)
  | double (d : Double)
deriving DecidableEq, Repr

inductive Value where
  | null
  | bool (b : Bool)
  | number (n : Number)
  | string (s : String)
  | array (items : List Value)
  /-- Members in the order of their names, each name once. -/
  | object (members : List (String × Value))
deriving Repr, Inhabited

/-! ## Numbers -/

namespace Number

/-- Takes digits in front into `n`, as long as the number fits into 64 bits. -/
def takeDigits : (n : Nat) → List Char → Nat × List Char
  | n, [] => (n, [])
  | n, c :: cs =>
    if c.isDigit then
      let m := n * 10 + (c.toNat - '0'.toNat)
      if m < Nat.pow 2 64 then takeDigits m cs else (n, c :: cs)
    else (n, c :: cs)

/-- The digits in front, as a number of any size. -/
def natOfDigits (cs : List Char) : Nat :=
  (cs.takeWhile (·.isDigit)).foldl (fun n c => n * 10 + (c.toNat - '0'.toNat)) 0

def isMinus : List Char → Bool
  | '-' :: _ => true
  | _ => false

/-- The exponent behind an `e`; 0 if there is none. -/
def exponent : List Char → Int
  | [] => 0
  | _ :: cs =>
    let size : Int := natOfDigits (dropSign cs)
    if isMinus cs then -size else size

/-- Exponents from here on are not scaled by at all. -/
def exponentLimit : Nat := Nat.pow 2 31

/-- `significand · 10 ^ (e + exponent)`. An exponent beyond the limit gives zero if it is negative
or nothing is there to scale, and no number otherwise. -/
def scaled? (negative : Bool) (significand : Nat) (e : Int) (exponent : Int) : Option Double :=
  if exponent.natAbs < exponentLimit then Double.ofScaled? negative significand (e + exponent)
  else if significand = 0 || exponent < 0 then Double.ofScaled? negative 0 0
  else none

/-- The double written as `cs`, a number without its sign. Digits that do not fit into 64 bits
together with those before them only count as places. -/
def double? (negative : Bool) (cs : List Char) : Option Double :=
  let (whole, rest) := takeDigits 0 cs
  let places := (rest.takeWhile (·.isDigit)).length
  match dropDigits rest with
  | '.' :: fraction =>
    let (significand, rest) := takeDigits whole fraction
    scaled? negative significand (places - (fraction.length - rest.length : Nat) : Int)
      (exponent (dropDigits rest))
  | rest => scaled? negative whole places (exponent rest)

/-- The integer of the given sign and size, if it fits into 64 bits. There is no integer `-0`. -/
def int? (negative : Bool) (size : Nat) : Option Int :=
  if negative then if 0 < size && size ≤ Nat.pow 2 63 then some (-size) else none
  else if size < Nat.pow 2 64 then some size else none

/-- The number with the given text; `none` if it is out of range. -/
def ofText? (text : List Char) : Option Number :=
  let negative := isMinus text
  let cs := if negative then text.tail else text
  let integer := if cs.all (·.isDigit) then int? negative (natOfDigits cs) else none
  match integer with
  | some n => some (.int n)
  | none => (double? negative cs).map .double

def chars : Number → List Char
  | .int n => (toString n).toList
  | .double d => d.chars

end Number

/-! ## Keeping a tree -/

/-- Arrays and objects may be nested this deep. -/
def deepest : Nat := 127

/-- Sets the member `name` of an object. -/
def putMember (name : String) (v : α) : List (String × α) → List (String × α)
  | [] => [(name, v)]
  | (n, w) :: ms =>
    if name < n then (name, v) :: (n, w) :: ms
    else if name = n then (name, v) :: ms
    else (n, w) :: putMember name v ms

mutual

/-- The value of a tree, in which arrays and objects may be nested `room` levels deep. -/
def Tree.value? (room : Nat) : Tree → Option Value
  | .null => some .null
  | .bool b => some (.bool b)
  | .number text => (Number.ofText? text).map .number
  | .string ps => (Piece.text? ps).map .string
  | .array items =>
    match room with
    | 0 => none
    | room + 1 => (Tree.values? room items).map .array
  | .object members =>
    match room with
    | 0 => none
    | room + 1 => (Tree.members? room members []).map .object

def Tree.values? (room : Nat) : List Tree → Option (List Value)
  | [] => some []
  | t :: ts =>
    match t.value? room, Tree.values? room ts with
    | some v, some vs => some (v :: vs)
    | _, _ => none

/-- Sets the given members in order. -/
def Tree.members? (room : Nat) :
    List (List Piece × Tree) → List (String × Value) → Option (List (String × Value))
  | [], done => some done
  | (name, t) :: ms, done =>
    match Piece.text? name, t.value? room with
    | some name, some v => Tree.members? room ms (putMember name v done)
    | _, _ => none

end

namespace Value

/-- The value of a whole text. -/
def ofText (s : String) : Option Value := (Tree.ofText s).bind (·.value? deepest)

/-! ## Back to trees -/

mutual

def toTree : Value → Tree
  | .null => .null
  | .bool b => .bool b
  | .number n => .number n.chars
  | .string s => .string (Piece.ofText s)
  | .array items => .array (toTrees items)
  | .object members => .object (toMembers members)

def toTrees : List Value → List Tree
  | [] => []
  | v :: vs => toTree v :: toTrees vs

def toMembers : List (String × Value) → List (List Piece × Tree)
  | [] => []
  | (name, v) :: ms => (Piece.ofText name, toTree v) :: toMembers ms

end

end Value

end OfflineSchedule.Json
