import OfflineSchedule.Text.Lowercase
import OfflineSchedule.Url.Percent
import OfflineSchedule.Url.Punycode
/-!
# Hosts

The host of a URL is a domain name, an IPv4 address in any of its spellings, or an IPv6 address in
brackets. Each is brought into its usual form. A host of a scheme without a known meaning is kept
as it is.
-/

namespace OfflineSchedule.Url

/-- Cuts a text at every `sep`. -/
def splitAt (sep : Char) : List Char → List (List Char)
  | [] => [[]]
  | c :: cs =>
    if c = sep then [] :: splitAt sep cs
    else
      match splitAt sep cs with
      | [] => [[c]]
      | w :: ws => (c :: w) :: ws

/-- Puts `sep` between texts. -/
def joinWith (sep : Char) : List (List Char) → List Char
  | [] => []
  | [w] => w
  | w :: ws => w ++ sep :: joinWith sep ws

/-- The number written in the given base. -/
def readNumber? (base : Nat) (cs : List Char) : Option Nat :=
  cs.foldlM (fun n c =>
    match hexValue? c with
    | some d => if d < base then some (n * base + d) else none
    | none => none) 0

def decimal (n : Nat) : List Char := Nat.toDigits 10 n

/-! ## IPv4 -/

/-- A part of an address: decimal, octal after `0`, hexadecimal after `0x`. -/
def ipv4Part? : List Char → Option Nat
  | [] => none
  | ['0'] => some 0
  | '0' :: c :: cs =>
    if c = 'x' || c = 'X' then readNumber? 16 cs else readNumber? 8 (c :: cs)
  | cs => readNumber? 10 cs

/-- The parts of a name, without an empty last one. -/
def labels (domain : List Char) : List (List Char) :=
  let ls := splitAt '.' domain
  if ls.getLast? = some [] then ls.dropLast else ls

/-- Whether a name has to be an address. -/
def endsInNumber (domain : List Char) : Bool :=
  match (labels domain).getLast? with
  | none => false
  | some l => (!l.isEmpty && l.all (·.isDigit)) || (ipv4Part? l).isSome

/-- The number of an address. The last part fills all bytes that the parts before it leave. -/
def ipv4? (domain : List Char) : Option Nat := do
  let ns ← (labels domain).mapM ipv4Part?
  let last ← ns.getLast?
  let front := ns.dropLast
  if 3 < front.length || front.any (255 < ·) || Nat.pow 256 (4 - front.length) ≤ last then none
  else some (front.foldl (fun n p => n * 256 + p) 0 * Nat.pow 256 (4 - front.length) + last)

def ipv4Chars (n : Nat) : List Char :=
  joinWith '.' ([n / 256 / 256 / 256, n / 256 / 256 % 256, n / 256 % 256, n % 256].map decimal)

/-! ## IPv6 -/

/-- A byte at the end of an IPv6 address, without leading zeros. -/
def ipv6Byte? : List Char → Option Nat
  | [] => none
  | ['0'] => some 0
  | '0' :: _ => none
  | cs => (readNumber? 10 cs).bind fun n => if n ≤ 255 then some n else none

/-- One of the sixteen-bit pieces, or the two that an IPv4 address makes at the end. -/
def ipv6Piece? (last : Bool) (cs : List Char) : Option (List Nat) :=
  if last && cs.contains '.' then
    match (splitAt '.' cs).mapM ipv6Byte? with
    | some [a, b, c, d] => some [a * 256 + b, c * 256 + d]
    | _ => none
  else if cs.isEmpty || 4 < cs.length then none
  else (readNumber? 16 cs).map ([·])

/-- Pieces between colons; no text at all is no piece. -/
def ipv6Pieces? (last : Bool) (cs : List Char) : Option (List Nat) :=
  if cs.isEmpty then some []
  else
    let ws := splitAt ':' cs
    let front := ws.dropLast.mapM (ipv6Piece? false)
    match front, ws.getLast?.bind (ipv6Piece? last) with
    | some ps, some p => some (ps.flatten ++ p)
    | _, _ => none

/-- Cuts at the first double colon. -/
def cutAtGap : List Char → Option (List Char × List Char)
  | ':' :: ':' :: cs => some ([], cs)
  | c :: cs => (cutAtGap cs).map fun p => (c :: p.1, p.2)
  | [] => none

/-- The eight pieces of an address, in which a double colon stands for at least one zero. -/
def ipv6? (cs : List Char) : Option (List Nat) :=
  match cutAtGap cs with
  | some (left, right) =>
    match ipv6Pieces? false left, ipv6Pieces? true right with
    | some a, some b =>
      if a.length + b.length ≤ 7 then
        some (a ++ List.replicate (8 - a.length - b.length) 0 ++ b)
      else none
    | _, _ => none
  | none => (ipv6Pieces? true cs).bind fun ps => if ps.length = 8 then some ps else none

/-- The number of zeros in front. -/
def zeros (ps : List Nat) : Nat := (ps.takeWhile (· = 0)).length

/-- Where the longest run of zeros starts, and its length; the first of equally long ones. -/
def longestZeros : (start : Nat) → List Nat → Nat × Nat
  | start, [] => (start, 0)
  | start, p :: ps =>
    let here := (start, zeros (p :: ps))
    let later := longestZeros (start + 1) ps
    if later.2 ≤ here.2 then here else later

def ipv6Words (ps : List Nat) : List Char := joinWith ':' (ps.map (Nat.toDigits 16))

/-- The address with its longest run of two or more zeros left out. -/
def ipv6Chars (ps : List Nat) : List Char :=
  let (start, count) := longestZeros 0 ps
  let text :=
    if count < 2 then ipv6Words ps
    else ipv6Words (ps.take start) ++ ':' :: ':' :: ipv6Words (ps.drop (start + count))
  '[' :: text ++ [']']

/-! ## Hosts -/

def forbiddenInHost (c : Char) : Bool :=
  c ∈ ['\x00', '\t', '\n', '\r', ' ', '#', '/', ':', '<', '>', '?', '@', '[', '\\', ']', '^', '|']

def forbiddenInDomain (c : Char) : Bool := forbiddenInHost c || isControl c || c = '%'

/-- The ASCII form of a label. -/
def asciiLabel (l : List Char) : List Char :=
  if l.all (·.toNat < 0x80) then l else 'x' :: 'n' :: '-' :: '-' :: Punycode.encode l

/-- Whether a character is left out of a name: soft hyphens, zero-width marks and variation
selectors. -/
def ignoredInName (c : Char) : Bool :=
  c ∈ ['\u00ad', '\u034f', '\u200b', '\u2060', '\u2064', '\ufeff'] ||
    '\u180b' ≤ c && c ≤ '\u180d' || '\ufe00' ≤ c && c ≤ '\ufe0f'

/-- What a character of a name stands for. There are three other full stops, and ASCII characters in
full width. -/
def nameChar (c : Char) : List Char :=
  if ignoredInName c then []
  else if c = '\u3002' || c = '\uff61' then ['.']
  else if '\uff01' ≤ c && c ≤ '\uff5e' then Text.lowerChar (Char.ofNat (c.toNat - 0xFEE0))
  else Text.lowerChar c

/-- The ASCII form of a name. Its letters become small ones. -/
def asciiDomain (cs : List Char) : List Char :=
  joinWith '.' ((splitAt '.' (cs.flatMap nameChar)).map asciiLabel)

def bracketed? : List Char → Option (Option (List Char))
  | '[' :: cs => some (if cs.getLast? = some ']' then some cs.dropLast else none)
  | _ => none

/-- The host of a special URL. -/
def host? (cs : List Char) : Option (List Char) :=
  match bracketed? cs with
  | some address => address.bind fun a => (ipv6? a).map ipv6Chars
  | none => do
    let name := asciiDomain (← Text.Utf8.chars? (decode cs))
    if name.isEmpty || name.any forbiddenInDomain then none
    else if endsInNumber name then (ipv4? name).map ipv4Chars
    else some name

/-- The host of a URL whose scheme is not special. -/
def plainHost? (cs : List Char) : Option (List Char) :=
  match bracketed? cs with
  | some address => address.bind fun a => (ipv6? a).map ipv6Chars
  | none => if cs.any forbiddenInHost then none else some (encode (fun _ => false) cs)

end OfflineSchedule.Url
