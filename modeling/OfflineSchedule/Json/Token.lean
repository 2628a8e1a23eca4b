/-!
# JSON tokens

The words of a JSON text. The text is read as glyphs: characters, and `none` for a byte that is no
character, which may stand in a string only. Strings keep their `\u` escapes as UTF-16 units,
because only a string that is kept has to pair them up.
-/

namespace OfflineSchedule.Json

/-- A part of a string. -/
inductive Piece where
  | char (c : Char)
  /-- A `\u` escape. -/
  | unit (u : Nat)
  /-- A byte that is no character. -/
  | undecodable
deriving DecidableEq, Repr

inductive Token where
  | openArray
  | closeArray
  | openObject
  | closeObject
  | comma
  | colon
  | null
  | bool (b : Bool)
  /-- A number as written. -/
  | number (text : List Char)
  | string (pieces : List Piece)
deriving DecidableEq, Repr

/-! ## Words -/

def isSpace (c : Char) : Bool := c = ' ' || c = '\t' || c = '\n' || c = '\r'

/-- The tokens of one character. -/
def mark? : Char → Option Token
  | '[' => some .openArray
  | ']' => some .closeArray
  | '{' => some .openObject
  | '}' => some .closeObject
  | ',' => some .comma
  | ':' => some .colon
  | _ => none

/-- The character that a backslash and `c` stand for. -/
def escaped? : Char → Option Char
  | '"' => some '"'
  | '\\' => some '\\'
  | '/' => some '/'
  | 'b' => some '\x08'
  | 'f' => some '\x0c'
  | 'n' => some '\n'
  | 'r' => some '\r'
  | 't' => some '\t'
  | _ => none

def hexDigit? (c : Char) : Option Nat :=
  if '0' ≤ c && c ≤ '9' then some (c.toNat - '0'.toNat)
  else if 'a' ≤ c && c ≤ 'f' then some (c.toNat - 'a'.toNat + 10)
  else if 'A' ≤ c && c ≤ 'F' then some (c.toNat - 'A'.toNat + 10)
  else none

def isLetter (c : Char) : Bool := 'a' ≤ c && c ≤ 'z'

def isNumberChar (c : Char) : Bool :=
  ('0' ≤ c && c ≤ '9') || c = '-' || c = '+' || c = '.' || c = 'e' || c = 'E'

/-- The constants. -/
def word? (w : List Char) : Option Token :=
  if w = ['n', 'u', 'l', 'l'] then some .null
  else if w = ['t', 'r', 'u', 'e'] then some (.bool true)
  else if w = ['f', 'a', 'l', 's', 'e'] then some (.bool false)
  else none

/-! ## Numbers -/

def dropDigits : List Char → List Char := List.dropWhile (·.isDigit)

/-- Drops at least one digit. -/
def digits? : List Char → Option (List Char)
  | [] => none
  | c :: cs => if c.isDigit then some (dropDigits cs) else none

/-- Drops a whole part, which has no leading zero. -/
def whole? : List Char → Option (List Char)
  | '0' :: cs => some cs
  | cs => digits? cs

def fraction? : List Char → Option (List Char)
  | '.' :: cs => digits? cs
  | cs => some cs

def dropSign : List Char → List Char
  | '+' :: cs => cs
  | '-' :: cs => cs
  | cs => cs

def exponent? : List Char → Option (List Char)
  | [] => some []
  | c :: cs => if c = 'e' || c = 'E' then digits? (dropSign cs) else some (c :: cs)

/-- Whether the text is a number. -/
def isNumber (cs : List Char) : Bool :=
  let cs := match cs with
    | '-' :: cs => cs
    | cs => cs
  ((whole? cs).bind fraction?).bind exponent? == some []

def number? (cs : List Char) : Option Token := if isNumber cs then some (.number cs) else none

/-! ## The lexer -/

/-- What the lexer stands in. Texts read so far are kept backwards. -/
inductive Mode where
  | between
  | word (read : List Char)
  | number (read : List Char)
  | string (read : List Piece)
  /-- After a backslash. -/
  | escape (read : List Piece)
  /-- In a `\u` escape, with `left` more digits to come after the next one. -/
  | unit (read : List Piece) (left : Nat) (value : Nat)
deriving DecidableEq, Repr

/-- The mode after `c` between two tokens, and the token that `c` is. -/
def Mode.start? (c : Char) : Option (Mode × List Token) :=
  if isSpace c then some (.between, [])
  else if c = '"' then some (.string [], [])
  else if isLetter c then some (.word [c], [])
  else if isNumberChar c then some (.number [c], [])
  else (mark? c).map fun t => (.between, [t])

/-- Reads one character: the next mode and the tokens that end. -/
def Mode.next? : Mode → Char → Option (Mode × List Token)
  | .between, c => start? c
  | .word read, c =>
    if isLetter c then some (.word (c :: read), [])
    else do
      let t ← word? read.reverse
      let (m, ts) ← start? c
      return (m, t :: ts)
  | .number read, c =>
    if isNumberChar c then some (.number (c :: read), [])
    else do
      let t ← number? read.reverse
      let (m, ts) ← start? c
      return (m, t :: ts)
  | .string read, c =>
    if c = '"' then some (.between, [.string read.reverse])
    else if c = '\\' then some (.escape read, [])
    else if c.toNat < 0x20 then none
    else some (.string (.char c :: read), [])
  | .escape read, c =>
    if c = 'u' then some (.unit read 3 0, [])
    else (escaped? c).map fun d => (.string (.char d :: read), [])
  | .unit read left value, c =>
    (hexDigit? c).map fun d =>
      match left with
      | 0 => (.string (.unit (value * 16 + d) :: read), [])
      | left + 1 => (.unit read left (value * 16 + d), [])

/-- The token that the end of the text ends. -/
def Mode.finish? : Mode → Option (List Token)
  | .between => some []
  | .word read => (word? read.reverse).map ([·])
  | .number read => (number? read.reverse).map ([·])
  | _ => none

/-- Reads one glyph. -/
def Mode.step? (m : Mode) : Option Char → Option (Mode × List Token)
  | some c => m.next? c
  | none =>
    match m with
    | .string read => some (.string (.undecodable :: read), [])
    | _ => none

/-- The tokens of a text, put behind those in `done` (backwards). -/
def lexFrom : Mode → (done : List Token) → List (Option Char) → Option (List Token)
  | m, done, [] => m.finish?.map fun ts => done.reverse ++ ts
  | m, done, g :: gs =>
    match m.step? g with
    | some (m, ts) => lexFrom m (ts.reverse ++ done) gs
    | none => none

def Token.lex (gs : List (Option Char)) : Option (List Token) := lexFrom .between [] gs

end OfflineSchedule.Json
