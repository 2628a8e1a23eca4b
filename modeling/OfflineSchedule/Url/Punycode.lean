/-!
# Punycode

The ASCII form of a label of a domain name that is not ASCII: its ASCII characters, a hyphen, and
the other characters as differences written in base 36 with variable thresholds.
-/

namespace OfflineSchedule.Url.Punycode

def base : Nat := 36

/-- Letters stand for 0 to 25 and digits for 26 to 35. -/
def digit (n : Nat) : Char := Char.ofNat (if n < 26 then 'a'.toNat + n else '0'.toNat + (n - 26))

/-- The threshold of the digit at place `k`, a multiple of the base. -/
def threshold (k bias : Nat) : Nat := min 26 (max 1 (k - bias))

/-- Scales a difference down to at most 455 and counts the divisions. -/
def scaleDown : (rounds : Nat) → Nat → Nat × Nat
  | 0, delta => (delta, 0)
  | rounds + 1, delta =>
    if 455 < delta then
      let (d, n) := scaleDown rounds (delta / 35)
      (d, n + 1)
    else (delta, 0)

/-- The bias for the next difference. -/
def adapt (delta count : Nat) (first : Bool) : Nat :=
  let delta := if first then delta / 700 else delta / 2
  let (d, n) := scaleDown 64 (delta + delta / count)
  n * base + 36 * d / (d + 38)

/-- Writes a difference, the digit at place `k` being next. -/
def digits : (rounds : Nat) → (q k bias : Nat) → List Char
  | 0, q, _, _ => [digit q]
  | rounds + 1, q, k, bias =>
    let t := threshold k bias
    if q < t then [digit q]
    else digit (t + (q - t) % (base - t)) :: digits rounds ((q - t) / (base - t)) (k + base) bias

structure State where
  delta : Nat
  bias : Nat
  /-- Characters written so far. -/
  handled : Nat
  out : List Char

/-- Passes over the label once, writing the characters with code point `n`. -/
def pass (n basic : Nat) : List Char → State → State
  | [], s => s
  | c :: cs, s =>
    if c.toNat < n then pass n basic cs { s with delta := s.delta + 1 }
    else if c.toNat = n then
      pass n basic cs
        ⟨0, adapt s.delta (s.handled + 1) (s.handled = basic), s.handled + 1,
          s.out ++ digits 64 s.delta base s.bias⟩
    else pass n basic cs s

/-- Writes the characters from code point `n` on, lowest first. -/
def rounds (basic : Nat) (label : List Char) : (fuel : Nat) → (n : Nat) → State → List Char
  | 0, _, s => s.out
  | fuel + 1, n, s =>
    match ((label.filter (n ≤ ·.toNat)).map (·.toNat)).min? with
    | none => s.out
    | some m =>
      let s := pass m basic label { s with delta := s.delta + (m - n) * (s.handled + 1) }
      rounds basic label fuel (m + 1) { s with delta := s.delta + 1 }

def encode (label : List Char) : List Char :=
  let basic := label.filter (·.toNat < 0x80)
  let start := if basic.isEmpty then [] else basic ++ ['-']
  rounds basic.length label label.length 0x80 ⟨0, 72, basic.length, start⟩

end OfflineSchedule.Url.Punycode
