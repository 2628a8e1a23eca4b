import OfflineSchedule.Text.Utf8
/-!
# Percent-encoding

The parts of a URL escape characters as the hexadecimal digits of their bytes. Control characters
and characters beyond ASCII are always escaped; each part adds characters of its own.
-/

namespace OfflineSchedule.Url

/-- The digit of a number below 16. -/
def upperHexDigit (n : Nat) : Char :=
  Char.ofNat (if n < 10 then '0'.toNat + n else 'A'.toNat + (n - 10))

def encodeByte (b : UInt8) : List Char :=
  ['%', upperHexDigit (b.toNat / 16), upperHexDigit (b.toNat % 16)]

def isControl (c : Char) : Bool := c.toNat < 0x20 || c.toNat == 0x7F

/-- Escapes `c` if it is a control character, not ASCII, or in the set. -/
def encodeChar (set : Char → Bool) (c : Char) : List Char :=
  if isControl c || 0x7F < c.toNat || set c then (String.utf8EncodeChar c).flatMap encodeByte
  else [c]

def encode (set : Char → Bool) (cs : List Char) : List Char := cs.flatMap (encodeChar set)

/-! ## What each part escapes -/

def inFragment (c : Char) : Bool := c ∈ [' ', '"', '<', '>', '`']

def inPath (c : Char) : Bool := inFragment c || c ∈ ['#', '?', '\x7b', '\x7d']

def inUserInfo (c : Char) : Bool :=
  inPath c || c ∈ ['/', ':', ';', '=', '@', '[', '\\', ']', '^', '|']

/-- For a segment that is taken literally. In special URLs a backslash would separate segments. -/
def inSegment (special : Bool) (c : Char) : Bool :=
  inPath c || c = '/' || c = '%' || (special && c = '\\')

def inQuery (special : Bool) (c : Char) : Bool :=
  c ∈ [' ', '"', '#', '<', '>'] || (special && c = '\'')

/-! ## Decoding -/

def hexValue? (c : Char) : Option Nat :=
  if '0' ≤ c && c ≤ '9' then some (c.toNat - '0'.toNat)
  else if 'a' ≤ c && c ≤ 'f' then some (c.toNat - 'a'.toNat + 10)
  else if 'A' ≤ c && c ≤ 'F' then some (c.toNat - 'A'.toNat + 10)
  else none

/-- The byte of an escape `%XY`, given its two digits. -/
def escapedByte? : List Char → Option UInt8
  | [x, y] =>
    match hexValue? x, hexValue? y with
    | some a, some b => some (UInt8.ofNat (a * 16 + b))
    | _, _ => none
  | _ => none

/-- The bytes of a text with its escapes resolved, after the first `skip` characters. A percent sign
that starts no escape stays. -/
def decodeAfter : (skip : Nat) → List Char → List UInt8
  | _, [] => []
  | skip + 1, _ :: cs => decodeAfter skip cs
  | 0, c :: cs =>
    match if c = '%' then escapedByte? (cs.take 2) else none with
    | some b => b :: decodeAfter 2 cs
    | none => String.utf8EncodeChar c ++ decodeAfter 0 cs

def decode (cs : List Char) : List UInt8 := decodeAfter 0 cs

end OfflineSchedule.Url
