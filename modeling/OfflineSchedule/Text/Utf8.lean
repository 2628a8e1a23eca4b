/-!
# UTF-8

Bytes as characters. A byte that belongs to no well-formed sequence is kept as `none`, so that a
reader can pass over it where it does not matter.
-/

namespace OfflineSchedule.Text.Utf8

/-- The six low bits of a continuation byte. -/
def tail? (b : UInt8) : Option Nat :=
  if 0x80 ≤ b && b ≤ 0xBF then some (b.toNat - 0x80) else none

/-- A sequence that starts with the byte `b`: its character and the number of bytes after `b`. -/
def char? (b : UInt8) (rest : List UInt8) : Option (Char × Nat) :=
  if b < 0x80 then some (Char.ofNat b.toNat, 0)
  else if 0xC2 ≤ b && b ≤ 0xDF then
    match (rest.take 1).map tail? with
    | [some x] => some (Char.ofNat ((b.toNat - 0xC0) * 64 + x), 1)
    | _ => none
  else if 0xE0 ≤ b && b ≤ 0xEF then
    match (rest.take 2).map tail? with
    | [some x, some y] =>
      let n := ((b.toNat - 0xE0) * 64 + x) * 64 + y
      if 0x800 ≤ n && (n < 0xD800 || 0xDFFF < n) then some (Char.ofNat n, 2) else none
    | _ => none
  else if 0xF0 ≤ b && b ≤ 0xF4 then
    match (rest.take 3).map tail? with
    | [some x, some y, some z] =>
      let n := (((b.toNat - 0xF0) * 64 + x) * 64 + y) * 64 + z
      if 0x10000 ≤ n && n ≤ 0x10FFFF then some (Char.ofNat n, 3) else none
    | _ => none
  else none

/-- The characters of the bytes, after the first `skip` of them. -/
def glyphsAfter : (skip : Nat) → List UInt8 → List (Option Char)
  | _, [] => []
  | skip + 1, _ :: rest => glyphsAfter skip rest
  | 0, b :: rest =>
    match char? b rest with
    | some (c, n) => some c :: glyphsAfter n rest
    | none => none :: glyphsAfter 0 rest

/-- The characters, with `none` for each byte outside a well-formed sequence. -/
def glyphs (bytes : List UInt8) : List (Option Char) := glyphsAfter 0 bytes

/-- The characters, if every byte belongs to one. -/
def chars? (bytes : List UInt8) : Option (List Char) := (glyphs bytes).mapM id

def decode? (bytes : List UInt8) : Option String := (chars? bytes).map String.ofList

end OfflineSchedule.Text.Utf8
