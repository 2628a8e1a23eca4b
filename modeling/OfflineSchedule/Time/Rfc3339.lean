import OfflineSchedule.Time.Instant
/-!
# Timestamps

The timestamps of RFC 3339: a date, the letter `T` or a space, a time of day with an optional
fraction, and an offset from universal time. Reading converts to universal time, drops what
follows the ninth digit of a fraction, and accepts second 60 of any minute as a leap second.
Writing uses the offset `+00:00` and the shortest of 0, 3, 6 and 9 digits that loses nothing. A
year outside 0 to 9999 is written with its sign; such a text is not read again.
-/

namespace OfflineSchedule.Time.Rfc3339

/-! ## Reading -/

def digit? (c : Char) : Option Nat :=
  if '0' ≤ c && c ≤ '9' then some (c.toNat - '0'.toNat) else none

/-- Reads exactly `count` digits, after a number whose value is `acc`. -/
def number? : (count acc : Nat) → List Char → Option (Nat × List Char)
  | 0, acc, cs => some (acc, cs)
  | _ + 1, _, [] => none
  | count + 1, acc, c :: cs =>
    match digit? c with
    | some d => number? count (acc * 10 + d) cs
    | none => none

/-- Reads one given character. -/
def char? (c : Char) : List Char → Option (List Char)
  | [] => none
  | d :: cs => if d = c then some cs else none

/-- Adds up the digits in front, the first of which counts `place` nanoseconds. -/
def fractionDigits : (place acc : Nat) → List Char → Nat × List Char
  | _, acc, [] => (acc, [])
  | place, acc, c :: cs =>
    match digit? c with
    | some d => fractionDigits (place / 10) (acc + d * place) cs
    | none => (acc, c :: cs)

/-- Reads the fraction of a second in nanoseconds: nothing, or a point and at least one digit. -/
def fraction? : List Char → Option (Nat × List Char)
  | '.' :: c :: cs =>
    if (digit? c).isSome then some (fractionDigits 100000000 0 (c :: cs)) else none
  | '.' :: [] => none
  | cs => some (0, cs)

/-- Hours and minutes of an offset, in seconds. -/
def offsetSize? (cs : List Char) : Option (Int × List Char) := do
  let (h, cs) ← number? 2 0 cs
  let cs ← char? ':' cs
  let (m, cs) ← number? 2 0 cs
  if h < 24 && m < 60 then some (((h * 60 + m) * 60 : Nat), cs) else none

/-- Reads the offset from universal time in seconds. The minus sign may be the mathematical one. -/
def offset? : List Char → Option (Int × List Char)
  | [] => none
  | c :: cs =>
    if c = 'Z' || c = 'z' then some (0, cs)
    else if c = '+' then offsetSize? cs
    else if c = '-' || c = '\u2212' then (offsetSize? cs).map fun p => (-p.1, p.2)
    else none

/-- The letter or space between date and time. -/
def separator? : List Char → Option (List Char)
  | [] => none
  | c :: cs => if c = 'T' || c = 't' || c = ' ' then some cs else none

/-- Reads a whole timestamp. -/
def readChars (cs : List Char) : Option Instant := do
  let (year, cs) ← number? 4 0 cs
  let cs ← char? '-' cs
  let (month, cs) ← number? 2 0 cs
  let cs ← char? '-' cs
  let (day, cs) ← number? 2 0 cs
  let cs ← separator? cs
  let (hour, cs) ← number? 2 0 cs
  let cs ← char? ':' cs
  let (minute, cs) ← number? 2 0 cs
  let cs ← char? ':' cs
  let (second, cs) ← number? 2 0 cs
  let (nanos, cs) ← fraction? cs
  let (offset, cs) ← offset? cs
  let date : Date := ⟨year, month, day⟩
  if cs.isEmpty && date.isValid && hour < 24 && minute < 60 && second ≤ 60 then
    let clock : Nat := (hour * 60 + minute) * 60 + min second 59
    some ⟨date.toDays * Instant.secondsPerDay + clock - offset,
      nanos + if second = 60 then 1000000000 else 0⟩
  else none

def read (s : String) : Option Instant := readChars s.toList

/-! ## Writing -/

def yearChars (y : Int) : List Char :=
  if 0 ≤ y && y ≤ 9999 then Instant.digits 4 y.toNat
  else (if y < 0 then '-' else '+') :: Instant.digits 4 y.natAbs

def fractionChars (nanos : Nat) : List Char :=
  if nanos = 0 then []
  else if nanos % 1000000 = 0 then '.' :: Instant.digits 3 (nanos / 1000000)
  else if nanos % 1000 = 0 then '.' :: Instant.digits 6 (nanos / 1000)
  else '.' :: Instant.digits 9 nanos

def writeChars (t : Instant) : List Char :=
  let d := t.date
  yearChars d.year ++ '-' :: Instant.digits 2 d.month ++ '-' :: Instant.digits 2 d.day ++
    'T' :: Instant.digits 2 t.hour ++ ':' :: Instant.digits 2 t.minute ++
    ':' :: Instant.digits 2 t.second ++ fractionChars (t.nanos % 1000000000) ++ "+00:00".toList

def write (t : Instant) : String := String.ofList (writeChars t)

end OfflineSchedule.Time.Rfc3339
