/-!
# Doubles

Numbers with a fraction or an exponent, and integers too large for 64 bits, become doubles. Reading
takes the digits that fit into 64 bits as an integer and scales it by powers of ten, each of which
rounds once; a number whose scaling overflows is refused. Writing uses the fewest digits that tell
the double from its neighbours, of those the nearest.
-/

namespace OfflineSchedule.Json

/-- A finite double, by its 64 bits. -/
structure Double where
  bits : UInt64
deriving DecidableEq, Repr

namespace Double

/-! ## Reading -/

def largestPower : Nat := 308

/-- Divides by as many powers of ten as needed. Zero stays zero. -/
def shrink : (rounds : Nat) → Float → Nat → Float
  | 0, f, _ => f
  | rounds + 1, f, e =>
    if e ≤ largestPower then f / Float.ofScientific 1 false e
    else if f == 0.0 then f
    else shrink rounds (f / Float.ofScientific 1 false largestPower) (e - largestPower)

/-- `significand · 10 ^ exponent`; `none` if it is beyond the range. -/
def scale? (significand : Nat) (exponent : Int) : Option Float :=
  let f := Float.ofNat significand
  let e := exponent.natAbs
  if exponent < 0 then some (shrink (e / largestPower + 1) f e)
  else if e ≤ largestPower then
    let g := f * Float.ofScientific 1 false e
    if g.isInf then none else some g
  else if f == 0.0 then some f
  else none

/-- The number with the given sign and size. -/
def ofScaled? (negative : Bool) (significand : Nat) (exponent : Int) : Option Double :=
  (scale? significand exponent).map fun f => ⟨(if negative then -f else f).toBits⟩

/-! ## Writing -/

def isNegative (d : Double) : Bool := d.bits >>> 63 == 1

/-- The size as `m · 2 ^ q`. -/
def parts (d : Double) : Nat × Int :=
  let e := (d.bits >>> 52 &&& 0x7FF).toNat
  let f := (d.bits &&& 0xFFFFFFFFFFFFF).toNat
  if e = 0 then (f, -1074) else (f + Nat.pow 2 52, e - 1075)

/-- The size and the ends of the interval that rounds to it, four-fold, over one denominator. -/
structure Interval where
  low : Nat
  value : Nat
  high : Nat
  denominator : Nat
  /-- Whether the ends themselves round to it. -/
  closed : Bool

def interval (d : Double) : Interval :=
  let (m, q) := d.parts
  -- below a power of two the neighbour is half as far
  let down := if m = Nat.pow 2 52 && -1074 < q then 1 else 2
  let scale := if q < 0 then 1 else Nat.pow 2 q.toNat
  ⟨(4 * m - down) * scale, 4 * m * scale, (4 * m + 2) * scale,
    4 * (if q < 0 then Nat.pow 2 (-q).toNat else 1), m % 2 = 0⟩

/-- Whether `n · 10 ^ e` lies in the interval. -/
def Interval.holds (i : Interval) (n : Nat) (e : Int) : Bool :=
  let x := n * (if e < 0 then 1 else Nat.pow 10 e.toNat) * i.denominator
  let unit := if e < 0 then Nat.pow 10 (-e).toNat else 1
  let low := i.low * unit
  let high := i.high * unit
  if i.closed then low ≤ x && x ≤ high else low < x && x < high

/-- The multiples of `10 ^ e` next to the size, the nearer one first; of two equally near ones the
even one is first. -/
def Interval.neighbours (i : Interval) (e : Int) : List Nat :=
  let unit := i.denominator * (if e < 0 then 1 else Nat.pow 10 e.toNat)
  let x := i.value * (if e < 0 then Nat.pow 10 (-e).toNat else 1)
  let n := x / unit
  let rest := x % unit
  if 2 * rest < unit || (2 * rest = unit && n % 2 = 0) then [n, n + 1] else [n + 1, n]

/-- The first of the exponents `e`, `e - 1`, … at which a multiple is in the interval. -/
def Interval.search (i : Interval) : (rounds : Nat) → Int → Nat × Int
  | 0, e => ((i.neighbours e).headD 0, e)
  | rounds + 1, e =>
    match (i.neighbours e).find? fun n => 0 < n && i.holds n e with
    | some n => (n, e)
    | none => i.search rounds (e - 1)

/-- Drops the zeros at the end. -/
def dropZeros : (rounds : Nat) → Nat × Int → Nat × Int
  | 0, p => p
  | rounds + 1, (n, e) => if n % 10 = 0 then dropZeros rounds (n / 10, e + 1) else (n, e)

/-- The shortest decimal `n · 10 ^ e` that reads back as a size other than zero. -/
def shortest (d : Double) : Nat × Int := dropZeros 20 (d.interval.search 640 309)

/-- Writes `digits · 10 ^ e`: as a plain decimal fraction from 10⁻⁵ up to below 10¹⁶, else with an
exponent. -/
def layout (digits : List Char) (e : Int) : List Char :=
  let point : Int := digits.length + e
  if 0 ≤ e && point ≤ 16 then digits ++ List.replicate e.toNat '0' ++ ['.', '0']
  else if 0 < point && point ≤ 16 then
    digits.take point.toNat ++ '.' :: digits.drop point.toNat
  else if -5 < point && point ≤ 0 then
    '0' :: '.' :: List.replicate (-point).toNat '0' ++ digits
  else
    let fraction := match digits.tail with
      | [] => []
      | ds => '.' :: ds
    digits.take 1 ++ fraction ++ 'e' :: (toString (point - 1)).toList

def chars (d : Double) : List Char :=
  let size :=
    if d.parts.1 = 0 then ['0', '.', '0']
    else
      let (n, e) := d.shortest
      layout (Nat.toDigits 10 n) e
  if d.isNegative then '-' :: size else size

end Double

end OfflineSchedule.Json
