import OfflineSchedule.Yaml.Scalar
/-!
# YAML tokens

The words of a YAML text, with the marks that indentation stands for. The lexer reads a token at a
time. A word in front of a colon turns out to be a key only when the colon is reached; the mark for
it is then put in behind the tokens that come before the word.
-/

namespace OfflineSchedule.Yaml

/-- A handle, such as `!!`, and what follows it. A full tag has an empty handle. -/
structure TagName where
  handle : List Char
  suffix : List Char
deriving DecidableEq, Repr

inductive Token where
  | version (major minor : Nat)
  | tagDirective (handle expansion : List Char)
  | documentStart
  | documentEnd
  | sequenceStart
  | mappingStart
  /-- The end of a block. -/
  | blockEnd
  | openSequence
  | closeSequence
  | openMapping
  | closeMapping
  /-- The hyphen of a block. -/
  | entry
  /-- The comma of a flow. -/
  | comma
  | key
  | value
  | alias (name : List Char)
  | anchor (name : List Char)
  | tag (t : TagName)
  | scalar (style : Style) (text : List Char)
deriving DecidableEq, Repr

/-! ## The state of the lexer -/

/-- A place where a key without a mark may have started. -/
structure KeyStart where
  /-- Tokens before it. -/
  position : Nat
  index : Nat
  line : Nat
  column : Nat
  /-- Nothing but a key may stand here. -/
  required : Bool

structure Lexer where
  cursor : Cursor
  /-- Backwards. -/
  tokens : List Token := []
  count : Nat := 0
  /-- The columns of the open blocks, innermost first. -/
  indents : List Nat := []
  /-- For each open flow and for the blocks around them, innermost first. -/
  keys : List (Option KeyStart) := [none]
  /-- Whether a key without a mark may start here. -/
  keyAllowed : Bool := true

namespace Lexer

/-- How many flows are open. -/
def flow (l : Lexer) : Nat := l.keys.length - 1

def inFlow (l : Lexer) : Bool := 0 < l.flow

def put (t : Token) (l : Lexer) : Lexer := { l with tokens := t :: l.tokens, count := l.count + 1 }

/-- Puts a token behind the first `position` ones. -/
def putAt (position : Nat) (t : Token) (l : Lexer) : Lexer :=
  let later := l.count - position
  { l with
    tokens := l.tokens.take later ++ t :: l.tokens.drop later
    count := l.count + 1 }

def moveTo (c : Cursor) (l : Lexer) : Lexer := { l with cursor := c }

def skip (n : Nat) (l : Lexer) : Lexer := { l with cursor := l.cursor.skip n }

def allowKey (b : Bool) (l : Lexer) : Lexer := { l with keyAllowed := b }

/-! ### Keys -/

/-- Gives up the innermost key start, which must not be required. -/
def dropKey (l : Lexer) : Option Lexer :=
  match l.keys with
  | some k :: keys => if k.required then none else some { l with keys := none :: keys }
  | _ => some l

/-- Notes that a key may start here. -/
def noteKey (l : Lexer) : Option Lexer :=
  if l.keyAllowed then
    let c := l.cursor
    let required := !l.inFlow && l.indents.head? = some c.column
    l.dropKey.map fun l =>
      { l with keys := some ⟨l.count, c.index, c.line, c.column, required⟩ :: l.keys.tail }
  else some l

/-- Whether the key start is too far back: a key is on one line and shorter than 1024 characters. -/
def KeyStart.isStale (c : Cursor) (k : KeyStart) : Bool :=
  k.line < c.line || k.index + 1024 < c.index

/-- Gives up key starts that are too far back. -/
def dropStaleKeys (l : Lexer) : Option Lexer :=
  if l.keys.any fun k => k.any fun k => KeyStart.isStale l.cursor k && k.required then none
  else some { l with keys := l.keys.map fun k => k.filter (!KeyStart.isStale l.cursor ·) }

/-! ### Blocks -/

/-- Opens a block at a column, if that is further in than the block around it. -/
def openBlock (column : Nat) (position : Option Nat) (t : Token) (l : Lexer) : Lexer :=
  if l.inFlow || l.indents.head?.any (column ≤ ·) then l
  else
    let l := { l with indents := column :: l.indents }
    match position with
    | some p => l.putAt p t
    | none => l.put t

/-- Closes the given blocks as long as they are further in than the column. -/
def closeBlocks (column : Nat) (l : Lexer) : List Nat → Lexer
  | [] => { l with indents := [] }
  | i :: is =>
    if column < i then closeBlocks column (l.put .blockEnd) is else { l with indents := i :: is }

/-- Closes the blocks that are further in than the column. -/
def backTo (column : Nat) (l : Lexer) : Lexer :=
  if l.inFlow then l else l.closeBlocks column l.indents

/-- Closes all blocks. -/
def closeAll (l : Lexer) : Lexer :=
  if l.inFlow then l
  else { l.indents.foldl (fun l _ => l.put .blockEnd) l with indents := [] }

/-! ### Blanks -/

/-- Goes on to the next token over blanks, comments and line breaks. -/
def toNext : (fuel : Nat) → Lexer → Lexer
  | 0, l => l
  | fuel + 1, l =>
    let c := if l.cursor.index = 0 && l.cursor.has '\ufeff' then l.cursor.skip else l.cursor
    let tabs := l.inFlow || !l.keyAllowed
    let c := (c.take fun x => x = ' ' || (tabs && x = '\t')).2.skipComment
    if c.hasBreak then
      toNext fuel { l with cursor := c.skipBreak, keyAllowed := l.keyAllowed || !l.inFlow }
    else l.moveTo c

/-! ## Directives, anchors and tags -/

/-- Goes on to the next line over a comment. -/
def endDirective (c : Cursor) : Option Cursor :=
  let c := c.skipBlanks.skipComment
  if c.endsLine then some c.skipBreak else none

def versionNumber? (c : Cursor) : Option (Nat × Cursor) :=
  let (ds, c) := c.take (·.isDigit)
  if ds.isEmpty || 9 < ds.length then none
  else some (ds.foldl (fun n d => n * 10 + (d.toNat - '0'.toNat)) 0, c)

def version? (c : Cursor) : Option (Token × Cursor) := do
  let (major, c) ← versionNumber? c.skipBlanks
  if !c.has '.' then none
  else
    let (minor, c) ← versionNumber? c.skip
    return (.version major minor, c)

/-- A tag handle. In a directive it ends with an exclamation mark. -/
def handle? (directive : Bool) (c : Cursor) : Option (List Char × Cursor) :=
  if !c.has '!' then none
  else
    let (word, d) := c.skip.take isWordChar
    if d.has '!' then some ('!' :: word ++ ['!'], d.skip)
    else if directive && !word.isEmpty then none
    else some ('!' :: word, d)

def isUriChar (verbatim : Bool) (x : Char) : Bool :=
  isWordChar x ||
    x ∈ [';', '/', '?', ':', '@', '&', '=', '+', '$', '.', '%', '!', '~', '*', '\'', '(', ')'] ||
    (verbatim && x ∈ [',', '[', ']'])

/-- Whether every percent sign starts an escape. -/
def areEscapes : List Char → Bool
  | [] => true
  | '%' :: x :: y :: cs => (Url.hexValue? x).isSome && (Url.hexValue? y).isSome && areEscapes cs
  | '%' :: _ => false
  | _ :: cs => areEscapes cs

/-- The text of a tag behind `head`, with escapes resolved. -/
def uri? (verbatim : Bool) (head : List Char) (c : Cursor) : Option (List Char × Cursor) :=
  let (cs, d) := c.take (isUriChar verbatim)
  if (head.isEmpty && cs.isEmpty) || !areEscapes cs then none
  else (Text.Utf8.chars? (Url.decode cs)).map fun cs => (head.tail ++ cs, d)

def tagDirective? (c : Cursor) : Option (Token × Cursor) := do
  let (handle, c) ← handle? true c.skipBlanks
  if !c.hasBlank then none
  else
    let (expansion, c) ← uri? true [] c.skipBlanks
    if c.endsWord then some (.tagDirective handle expansion, c) else none

/-- A directive, behind its percent sign. -/
def directive? (c : Cursor) : Option (Token × Cursor) := do
  let (name, c) := c.take isWordChar
  if name.isEmpty || !c.endsWord then none
  else
    let (t, c) ← match String.ofList name with
      | "YAML" => version? c
      | "TAG" => tagDirective? c
      | _ => none
    return (t, ← endDirective c)

/-- The name of an anchor or alias. -/
def anchorName? (c : Cursor) : Option (List Char × Cursor) :=
  let (name, c) := c.take isWordChar
  if name.isEmpty then none
  else if c.endsWord || (c.at? 0).any (· ∈ ['?', ':', ',', ']', '\x7d', '%', '@', '`']) then
    some (name, c)
  else none

/-- A tag, up to where it ends. -/
def tagName? (c : Cursor) : Option (TagName × Cursor) :=
  if c.has '<' 1 then
    match uri? true [] (c.skip 2) with
    | some (suffix, c) => if c.has '>' then some (⟨[], suffix⟩, c.skip) else none
    | none => none
  else
    match handle? false c with
    | none => none
    | some (handle, d) =>
      if 1 < handle.length && handle.getLast? = some '!' then
        (uri? false [] d).map fun (suffix, d) => (⟨handle, suffix⟩, d)
      else
        (uri? false handle d).map fun (suffix, d) =>
          (if suffix.isEmpty then ⟨[], ['!']⟩ else ⟨['!'], suffix⟩, d)

def tag? (flow : Bool) (c : Cursor) : Option (Token × Cursor) :=
  match tagName? c with
  | some (t, c) => if c.endsWord || (flow && c.has ',') then some (.tag t, c) else none
  | none => none

/-! ## Tokens -/

/-- A key start, a token that keeps keys from starting behind it, and the place behind it. -/
def word (l : Lexer) (read : Cursor → Option (Token × Cursor)) : Option Lexer := do
  let l ← l.noteKey
  let (t, c) ← read l.cursor
  return ((l.moveTo c).put t).allowKey false

def openFlow (t : Token) (l : Lexer) : Option Lexer :=
  l.noteKey.map fun l => (({ l with keys := none :: l.keys }.allowKey true).skip 1).put t

def closeFlow (t : Token) (l : Lexer) : Option Lexer :=
  l.dropKey.map fun l =>
    (({ l with keys := if l.inFlow then l.keys.tail else l.keys }.allowKey false).skip 1).put t

/-- An indicator that may stand in a block only where a key may start, and opens a block there. -/
def openBlockHere (t : Token) (l : Lexer) : Option Lexer :=
  if l.inFlow then some l
  else if l.keyAllowed then some (l.openBlock l.cursor.column none t)
  else none

def blockEntry (l : Lexer) : Option Lexer := do
  let l ← l.openBlockHere .sequenceStart
  let l ← l.dropKey
  return ((l.allowKey true).skip 1).put .entry

def explicitKey (l : Lexer) : Option Lexer := do
  let l ← l.openBlockHere .mappingStart
  let l ← l.dropKey
  return ((l.allowKey !l.inFlow).skip 1).put .key

/-- The colon behind a key. -/
def valueMark (l : Lexer) : Option Lexer :=
  match l.keys with
  | some k :: keys =>
    let l := { l with keys := none :: keys }.putAt k.position .key
    let l := (l.openBlock k.column (some k.position) .mappingStart).allowKey false
    some ((l.skip 1).put .value)
  | _ =>
    (l.openBlockHere .mappingStart).map fun l => ((l.allowKey !l.inFlow).skip 1).put .value

def documentMark (t : Token) (l : Lexer) : Option Lexer :=
  l.closeAll.dropKey.map fun l => ((l.allowKey false).skip 3).put t

def directive (l : Lexer) : Option Lexer := do
  let l ← l.closeAll.dropKey
  let (t, c) ← directive? (l.cursor.skip)
  return ((l.allowKey false).moveTo c).put t

def blockScalar (folded : Bool) (l : Lexer) : Option Lexer := do
  let l ← l.dropKey
  let (text, c) ← block? folded l.indents.head? l.cursor
  return ((l.allowKey true).moveTo c).put (.scalar (if folded then .folded else .literal) text)

def plainScalar (l : Lexer) : Option Lexer := do
  let l ← l.noteKey
  let indent := match l.indents.head? with
    | some i => i + 1
    | none => 0
  let p ← plain? l.inFlow indent l.cursor
  return ((l.moveTo p.after).put (.scalar .plain p.text)).allowKey p.broken

/-- Characters that start no plain scalar. -/
def isIndicator (x : Char) : Bool :=
  x ∈ ['-', '?', ':', ',', '[', ']', '\x7b', '\x7d', '#', '&', '*', '!', '|', '>', '\'', '"', '%',
    '@', '`']

/-- Reads the token that starts with `x`. -/
def token (x : Char) (l : Lexer) : Option Lexer :=
  let c := l.cursor
  if c.column = 0 && x = '%' then l.directive
  else if c.hasMarker '-' then l.documentMark .documentStart
  else if c.hasMarker '.' then l.documentMark .documentEnd
  else if x = '[' then l.openFlow .openSequence
  else if x = '\x7b' then l.openFlow .openMapping
  else if x = ']' then l.closeFlow .closeSequence
  else if x = '\x7d' then l.closeFlow .closeMapping
  else if x = ',' then l.dropKey.map fun l => ((l.allowKey true).skip 1).put .comma
  else if x = '-' && c.endsWord 1 then l.blockEntry
  else if x = '?' && (l.inFlow || c.endsWord 1) then l.explicitKey
  else if x = ':' && (l.inFlow || c.endsWord 1) then l.valueMark
  else if x = '*' then l.word fun c => (anchorName? c.skip).map fun (n, c) => (.alias n, c)
  else if x = '&' then l.word fun c => (anchorName? c.skip).map fun (n, c) => (.anchor n, c)
  else if x = '!' then l.word (tag? l.inFlow)
  else if x = '|' && !l.inFlow then l.blockScalar false
  else if x = '>' && !l.inFlow then l.blockScalar true
  else if x = '\'' then
    l.word fun c => (quoted? true c).map fun (text, c) => (.scalar .single text, c)
  else if x = '"' then
    l.word fun c => (quoted? false c).map fun (text, c) => (.scalar .double text, c)
  else if !(isBlank x || isBreak x || isIndicator x) || (x = '-' && !c.hasBlank 1) ||
      (!l.inFlow && (x = '?' || x = ':') && !c.endsWord 1) then l.plainScalar
  else none

/-- Ends the text. -/
def finish (l : Lexer) : Option Lexer := l.closeAll.dropKey

def run : (fuel : Nat) → Lexer → Option Lexer
  | 0, _ => none
  | fuel + 1, l =>
    match (l.toNext (l.cursor.rest.length + 1)).dropStaleKeys with
    | none => none
    | some l =>
      let l := l.backTo l.cursor.column
      match l.cursor.at? 0 with
      | none => l.finish
      | some x =>
        match l.token x with
        | some l => run fuel l
        | none => none

end Lexer

/-- The tokens of a text. -/
def Token.lex (cs : List Char) : Option (List Token) :=
  if cs.all isAllowed then
    (Lexer.run (cs.length + 2) { cursor := { rest := cs } }).map (·.tokens.reverse)
  else none

end OfflineSchedule.Yaml
