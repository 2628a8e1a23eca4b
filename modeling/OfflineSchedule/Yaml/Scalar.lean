import OfflineSchedule.Url.Percent
import OfflineSchedule.Yaml.Cursor
/-!
# YAML scalars

The scalar styles: plain, in single or double quotes, and literal or folded blocks. Each reader
starts at the first character of its scalar and gives the text and the place behind it.
-/

namespace OfflineSchedule.Yaml

inductive Style where
  | plain
  | single
  | double
  | literal
  | folded
deriving DecidableEq, Repr

/-! ## Quoted scalars -/

/-- The character behind a backslash in double quotes. -/
def escaped? : Char → Option Char
  | '0' => some '\x00'
  | 'a' => some '\x07'
  | 'b' => some '\x08'
  | 't' => some '\t'
  | '\t' => some '\t'
  | 'n' => some '\n'
  | 'v' => some '\x0b'
  | 'f' => some '\x0c'
  | 'r' => some '\r'
  | 'e' => some '\x1b'
  | ' ' => some ' '
  | '"' => some '"'
  | '/' => some '/'
  | '\\' => some '\\'
  | 'N' => some '\u0085'
  | '_' => some '\u00a0'
  | 'L' => some '\u2028'
  | 'P' => some '\u2029'
  | _ => none

/-- How many hexadecimal digits follow. -/
def codeLength : Char → Nat
  | 'x' => 2
  | 'u' => 4
  | 'U' => 8
  | _ => 0

/-- The character of a code in hexadecimal digits. -/
def code? (digits : List Char) : Option Char :=
  match digits.mapM Url.hexValue? with
  | some ds =>
    let n := ds.foldl (fun n d => n * 16 + d) 0
    if (0xD800 ≤ n && n ≤ 0xDFFF) || 0x10FFFF < n then none else some (Char.ofNat n)
  | none => none

/-- Reads an escape, of which the backslash comes first. -/
def escape? (c : Cursor) : Option (Char × Cursor) :=
  match c.at? 1 with
  | none => none
  | some x =>
    let n := codeLength x
    if n = 0 then (escaped? x).map fun y => (y, c.skip 2)
    else
      let digits := (c.rest.drop 2).take n
      if digits.length < n then none else (code? digits).map fun y => (y, c.skip (2 + n))

/-- Reads up to the closing quote; `text` is what was read before, backwards. -/
def quotedRest (single : Bool) : (fuel : Nat) → Cursor → (text : List Char) →
    Option (List Char × Cursor)
  | 0, _, _ => none
  | fuel + 1, c, text =>
    let gap (c : Cursor) (g : Gap) : Option (List Char × Cursor) :=
      match Gap.scan 0 fuel c g with
      | some (g, c) =>
        if c.isAtMarker then none else quotedRest single fuel c (g.text.reverse ++ text)
      | none => none
    match c.at? 0 with
    | none => none
    | some x =>
      if isBlank x || isBreak x then gap c {}
      else if single then
        if x = '\'' then
          if c.has '\'' 1 then quotedRest single fuel (c.skip 2) ('\'' :: text)
          else some (text.reverse, c.skip)
        else quotedRest single fuel c.skip (x :: text)
      else if x = '"' then some (text.reverse, c.skip)
      else if x = '\\' then
        if c.hasBreak 1 then gap c.skip.skipBreak { broken := true }
        else
          match escape? c with
          | some (y, c) => quotedRest single fuel c (y :: text)
          | none => none
      else quotedRest single fuel c.skip (x :: text)

/-- Reads a quoted scalar. -/
def quoted? (single : Bool) (c : Cursor) : Option (List Char × Cursor) :=
  quotedRest single (c.rest.length + 1) c.skip []

/-! ## Plain scalars -/

def isFlowMark (x : Char) : Bool := x ∈ [',', '[', ']', '\x7b', '\x7d']

structure Plain where
  text : List Char
  after : Cursor
  /-- Whether a line break was read behind the text. -/
  broken : Bool

/-- Reads on; `text` is what was read before, backwards, and `g` the gap behind it. -/
def plainRest (flow : Bool) (indent : Nat) : (fuel : Nat) → Cursor → (text : List Char) → Gap →
    Option Plain
  | 0, _, _, _ => none
  | fuel + 1, c, text, g =>
    let stop (c : Cursor) (g : Gap) : Option Plain := some ⟨text.reverse, c, g.broken⟩
    match c.at? 0 with
    | none => stop c g
    | some x =>
      if isBlank x || isBreak x then
        match Gap.scan indent fuel c g with
        | some (g, c) =>
          if (!flow && c.column < indent) || c.isAtMarker || c.has '#' then stop c g
          else plainRest flow indent fuel c text g
        | none => none
      else if flow && x = ':' && (c.at? 1).any (fun y => isFlowMark y || y = '?') then none
      else if (x = ':' && c.endsWord 1) || (flow && isFlowMark x) then stop c g
      else plainRest flow indent fuel c.skip (x :: g.text.reverse ++ text) {}

/-- Reads a plain scalar, in flow or block context below the given indentation. -/
def plain? (flow : Bool) (indent : Nat) (c : Cursor) : Option Plain :=
  plainRest flow indent (2 * c.rest.length + 2) c [] {}

/-! ## Block scalars -/

/-- What happens to the line breaks at the end. -/
inductive Chomping where
  | strip
  | clip
  | keep
deriving DecidableEq

structure BlockHeader where
  chomping : Chomping := .clip
  /-- The indentation, if it is given. -/
  increment : Option Nat := none

def chomping? : Char → Option Chomping
  | '+' => some .keep
  | '-' => some .strip
  | _ => none

/-- An indentation may not be zero. -/
def increment? (x : Char) : Option Nat :=
  if x.isDigit && x ≠ '0' then some (x.toNat - '0'.toNat) else none

/-- Reads the indicators behind `|` or `>`. -/
def blockHeader (c : Cursor) : BlockHeader × Cursor :=
  match (c.at? 0).bind chomping?, (c.at? 0).bind increment? with
  | some ch, _ =>
    match (c.at? 1).bind increment? with
    | some n => (⟨ch, some n⟩, c.skip 2)
    | none => (⟨ch, none⟩, c.skip)
  | none, some n =>
    match (c.at? 1).bind chomping? with
    | some ch => (⟨ch, some n⟩, c.skip 2)
    | none => (⟨.clip, some n⟩, c.skip)
  | none, none => ({}, c)

/-- Reads indentation and empty lines. With an indentation of 0, still unknown, every space counts
as indentation. The widest line is noted. -/
def blockBreaks (indent : Nat) : (fuel : Nat) → Cursor → (breaks : List Char) → (widest : Nat) →
    Option (List Char × Nat × Cursor)
  | 0, _, _, _ => none
  | fuel + 1, c, breaks, widest =>
    let spaces := (c.rest.takeWhile (· = ' ')).length
    let c := c.skip (if indent = 0 then spaces else min spaces (indent - c.column))
    let widest := max widest c.column
    if (indent = 0 || c.column < indent) && c.has '\t' then none
    else if c.hasBreak then
      let (text, c) := c.takeBreak
      blockBreaks indent fuel c (breaks ++ text) widest
    else some (breaks, widest, c)

/-- A block scalar in the course of reading. -/
structure BlockText where
  /-- Backwards. -/
  text : List Char := []
  /-- The break of the last line. -/
  lead : List Char := []
  /-- The breaks of empty lines after it. -/
  trail : List Char := []
  /-- Whether the last line started with a blank. -/
  wasBlank : Bool := false

/-- The text with the breaks before a line that starts with a blank or not. -/
def BlockText.join (folded blank : Bool) (b : BlockText) : List Char :=
  let lead :=
    if folded && b.lead = ['\n'] && !b.wasBlank && !blank then
      if b.trail.isEmpty then [' '] else []
    else b.lead
  b.trail.reverse ++ lead.reverse ++ b.text

def blockLines (folded : Bool) (indent : Nat) : (fuel : Nat) → Cursor → BlockText →
    Option (BlockText × Cursor)
  | 0, _, _ => none
  | fuel + 1, c, b =>
    if c.column = indent && !c.isAtEnd then
      let blank := c.hasBlank
      let text := b.join folded blank
      let (line, c) := c.take (!isBreak ·)
      let (lead, c) := c.takeBreak
      match blockBreaks indent (c.rest.length + 1) c [] 0 with
      | some (trail, _, c) =>
        blockLines folded indent fuel c ⟨line.reverse ++ text, lead, trail, blank⟩
      | none => none
    else some (b, c)

/-- The text with the breaks at its end. -/
def BlockText.finish (ch : Chomping) (b : BlockText) : List Char :=
  b.text.reverse ++
    match ch with
    | .strip => []
    | .clip => b.lead
    | .keep => b.lead ++ b.trail

/-- Reads a block scalar below the given indentation, which is `none` outside of every block. -/
def block? (folded : Bool) (parent : Option Nat) (c : Cursor) : Option (List Char × Cursor) :=
  let (h, c) := blockHeader c.skip
  let c := c.skipBlanks.skipComment
  if !c.endsLine then none
  else
    let c := c.skipBreak
    let given := h.increment.map (parent.getD 0 + ·)
    match blockBreaks (given.getD 0) (c.rest.length + 1) c [] 0 with
    | none => none
    | some (trail, widest, c) =>
      let least := match parent with
        | some p => p + 1
        | none => 1
      let indent := given.getD (max widest least)
      (blockLines folded indent (c.rest.length + 1) c { trail }).map fun (b, c) =>
        (b.finish h.chomping, c)

end OfflineSchedule.Yaml
