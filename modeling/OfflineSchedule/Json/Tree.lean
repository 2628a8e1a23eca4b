import OfflineSchedule.Json.Token
import OfflineSchedule.Text.Utf8
/-!
# JSON trees

A JSON text as written: numbers as text, strings in pieces, members in their order with repeated
names. Every text whose syntax is right has a tree, however deep; what its strings and numbers are
worth is decided when a value is kept (`Value`) or a record is read (`Record`).
-/

namespace OfflineSchedule.Json

inductive Tree where
  | null
  | bool (b : Bool)
  | number (text : List Char)
  | string (pieces : List Piece)
  | array (items : List Tree)
  | object (members : List (List Piece × Tree))
deriving Repr, Inhabited

/-! ## Reading -/

/-- An array or object that is not closed yet; what it holds so far is kept backwards. -/
inductive Frame where
  | array (items : List Tree)
  | object (members : List (List Piece × Tree))
  /-- An object whose member `name` gets the next value. -/
  | member (members : List (List Piece × Tree)) (name : List Piece)

/-- What may come next. -/
inductive Expect where
  | value
  /-- A value, or the end of an array that is still empty. -/
  | firstItem
  /-- A name, or the end of an object that is still empty. -/
  | firstName
  | name
  | colon
  /-- A comma or the end of the container. -/
  | separator
deriving DecidableEq

/-- Reading in progress: the containers that are open, innermost first, or the whole tree. -/
inductive Progress where
  | inside (frames : List Frame) (expect : Expect)
  | complete (t : Tree)

/-- Puts a value where one was expected. -/
def Progress.put (t : Tree) : List Frame → Option Progress
  | [] => some (.complete t)
  | .array items :: fs => some (.inside (.array (t :: items) :: fs) .separator)
  | .member members name :: fs =>
    some (.inside (.object ((name, t) :: members) :: fs) .separator)
  | .object _ :: _ => none

/-- Starts a value with the given token. -/
def Progress.openValue (fs : List Frame) : Token → Option Progress
  | .openArray => some (.inside (.array [] :: fs) .firstItem)
  | .openObject => some (.inside (.object [] :: fs) .firstName)
  | .null => put .null fs
  | .bool b => put (.bool b) fs
  | .number text => put (.number text) fs
  | .string pieces => put (.string pieces) fs
  | _ => none

/-- Ends the innermost container. -/
def Progress.close : Token → List Frame → Option Progress
  | .closeArray, .array items :: fs => put (.array items.reverse) fs
  | .closeObject, .object members :: fs => put (.object members.reverse) fs
  | _, _ => none

/-- Takes the name of a member. -/
def Progress.takeName : Token → List Frame → Option Progress
  | .string name, .object members :: fs => some (.inside (.member members name :: fs) .colon)
  | _, _ => none

/-- What a comma lets follow. -/
def Progress.afterComma : List Frame → Option Progress
  | .array items :: fs => some (.inside (.array items :: fs) .value)
  | .object members :: fs => some (.inside (.object members :: fs) .name)
  | _ => none

def Progress.step : Progress → Token → Option Progress
  | .complete _, _ => none
  | .inside fs .value, t => openValue fs t
  | .inside fs .firstItem, t => if t = .closeArray then close t fs else openValue fs t
  | .inside fs .firstName, t => if t = .closeObject then close t fs else takeName t fs
  | .inside fs .name, t => takeName t fs
  | .inside fs .colon, t => if t = .colon then some (.inside fs .value) else none
  | .inside fs .separator, t => if t = .comma then afterComma fs else close t fs

def Progress.run : Progress → List Token → Option Progress
  | p, [] => some p
  | p, t :: ts =>
    match p.step t with
    | some p => p.run ts
    | none => none

def Progress.tree? : Progress → Option Tree
  | .complete t => some t
  | .inside _ _ => none

namespace Tree

def ofTokens (ts : List Token) : Option Tree := (Progress.run (.inside [] .value) ts).bind (·.tree?)

def ofGlyphs (gs : List (Option Char)) : Option Tree := (Token.lex gs).bind ofTokens

def ofText (s : String) : Option Tree := ofGlyphs (s.toList.map some)

def ofBytes (bytes : List UInt8) : Option Tree := ofGlyphs (Text.Utf8.glyphs bytes)

end Tree

/-! ## Strings -/

/-- The character of two UTF-16 units, if they are a surrogate pair. -/
def pairChar? (high low : Nat) : Option Char :=
  if 0xD800 ≤ high && high < 0xDC00 && 0xDC00 ≤ low && low < 0xE000 then
    some (Char.ofNat (0x10000 + (high - 0xD800) * 0x400 + (low - 0xDC00)))
  else none

/-- The character of one UTF-16 unit, if it is no surrogate. -/
def unitChar? (u : Nat) : Option Char :=
  if 0xD800 ≤ u && u < 0xE000 then none else some (Char.ofNat u)

/-- The text of a string; `none` if it has a lone surrogate or a byte that is no character. -/
def Piece.chars? : List Piece → Option (List Char)
  | [] => some []
  | .undecodable :: _ => none
  | .char c :: ps => (chars? ps).map (c :: ·)
  | .unit u :: ps =>
    match unitChar? u with
    | some c => (chars? ps).map (c :: ·)
    | none =>
      match ps with
      | .unit v :: ps => (pairChar? u v).bind fun c => (chars? ps).map (c :: ·)
      | _ => none

def Piece.text? (ps : List Piece) : Option String := (chars? ps).map String.ofList

/-- A text as the pieces of a string. -/
def Piece.ofText (s : String) : List Piece := s.toList.map .char

end OfflineSchedule.Json
