/-!
# Places in a YAML text

The text that is still to be read and the place where it starts, with the character classes on
which the syntax rests.
-/

namespace OfflineSchedule.Yaml

def isBreak (c : Char) : Bool := c ∈ ['\n', '\r', '\u0085', '\u2028', '\u2029']

def isBlank (c : Char) : Bool := c = ' ' || c = '\t'

/-- Letters, digits, the hyphen and the underscore. -/
def isWordChar (c : Char) : Bool := c.isAlphanum || c = '-' || c = '_'

/-- Characters that may stand in a text at all. -/
def isAllowed (c : Char) : Bool :=
  let n := c.toNat
  n = 0x09 || n = 0x0A || n = 0x0D || (0x20 ≤ n && n ≤ 0x7E) || n = 0x85 ||
    (0xA0 ≤ n && n ≤ 0xFFFD) || 0x10000 ≤ n

structure Cursor where
  rest : List Char
  /-- Characters before. -/
  index : Nat := 0
  line : Nat := 0
  column : Nat := 0
deriving Repr

namespace Cursor

/-- The character `k` places ahead. -/
def at? (c : Cursor) (k : Nat) : Option Char := (c.rest.drop k).head?

def isAtEnd (c : Cursor) : Bool := c.rest.isEmpty

/-- Whether `x` stands `k` places ahead. -/
def has (c : Cursor) (x : Char) (k : Nat := 0) : Bool := c.at? k = some x

/-- Whether a blank stands `k` places ahead. -/
def hasBlank (c : Cursor) (k : Nat := 0) : Bool := (c.at? k).any isBlank

/-- Whether a line break stands `k` places ahead. -/
def hasBreak (c : Cursor) (k : Nat := 0) : Bool := (c.at? k).any isBreak

/-- Whether a line ends `k` places ahead. -/
def endsLine (c : Cursor) (k : Nat := 0) : Bool := (c.at? k).all isBreak

/-- Whether a word ends `k` places ahead. -/
def endsWord (c : Cursor) (k : Nat := 0) : Bool := (c.at? k).all fun x => isBlank x || isBreak x

/-- Goes on by `n` characters, all of which are there and on this line. -/
def skip (c : Cursor) (n : Nat := 1) : Cursor :=
  { c with rest := c.rest.drop n, index := c.index + n, column := c.column + n }

/-- Goes on over the characters in front that satisfy `p`, and gives them. -/
def take (c : Cursor) (p : Char → Bool) : List Char × Cursor :=
  let cs := c.rest.takeWhile p
  (cs, c.skip cs.length)

/-- Goes on over a line break and gives its text: a line feed, but for the separators of lines and
paragraphs. -/
def takeBreak (c : Cursor) : List Char × Cursor :=
  let next (text : List Char) (n : Nat) : List Char × Cursor :=
    (text, ⟨c.rest.drop n, c.index + n, c.line + 1, 0⟩)
  match c.rest with
  | '\r' :: '\n' :: _ => next ['\n'] 2
  | x :: _ =>
    if x = '\u2028' || x = '\u2029' then next [x] 1
    else if isBreak x then next ['\n'] 1
    else ([], c)
  | [] => ([], c)

def skipBreak (c : Cursor) : Cursor := c.takeBreak.2

/-- Goes on over blanks. -/
def skipBlanks (c : Cursor) : Cursor := (c.take isBlank).2

/-- Goes on over a comment, if one starts here. -/
def skipComment (c : Cursor) : Cursor := if c.has '#' then (c.take (!isBreak ·)).2 else c

/-- Whether the line starts with three times `x`, as a word. -/
def hasMarker (c : Cursor) (x : Char) : Bool :=
  c.column = 0 && c.rest.take 3 = [x, x, x] && c.endsWord 3

/-- Whether the line marks the start or the end of a document. -/
def isAtMarker (c : Cursor) : Bool := c.hasMarker '-' || c.hasMarker '.'

end Cursor

/-! ## Gaps -/

/-- Blanks and line breaks inside a scalar. -/
structure Gap where
  /-- Blanks before the first line break. -/
  blanks : List Char := []
  /-- The first line break. -/
  lead : List Char := []
  /-- The other line breaks. -/
  trail : List Char := []
  /-- Whether there is a line break. -/
  broken : Bool := false

namespace Gap

/-- Reads a gap. Within the columns below `indent` no tab may follow a line break. -/
def scan (indent : Nat) : (fuel : Nat) → Cursor → Gap → Option (Gap × Cursor)
  | 0, c, g => some (g, c)
  | fuel + 1, c, g =>
    match c.at? 0 with
    | none => some (g, c)
    | some x =>
      if isBlank x then
        if g.broken && c.column < indent && x = '\t' then none
        else
          scan indent fuel c.skip (if g.broken then g else { g with blanks := g.blanks ++ [x] })
      else if isBreak x then
        let (text, c) := c.takeBreak
        scan indent fuel c
          (if g.broken then { g with trail := g.trail ++ text }
          else { g with blanks := [], lead := text, broken := true })
      else some (g, c)

/-- What a gap counts for: its blanks, or a space for a single line break, or its further line
breaks. -/
def text (g : Gap) : List Char :=
  if !g.broken then g.blanks
  else if g.lead = ['\n'] then if g.trail.isEmpty then [' '] else g.trail
  else g.lead ++ g.trail

end Gap

end OfflineSchedule.Yaml
