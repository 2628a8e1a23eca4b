import OfflineSchedule.Url.Basic
/-!
# Reading URLs

An absolute URL, read as browsers read it: blanks around it, tabs and line breaks are dropped,
special schemes take backslashes for slashes, dots in the path are resolved, and every part is
escaped as far as it has to be.
-/

namespace OfflineSchedule.Url

inductive ReadError where
  /-- The text is no absolute URL. -/
  | invalid
  /-- The path is opaque and has no segments. -/
  | opaquePath
deriving DecidableEq, Repr

def isTrimmed (c : Char) : Bool := c.toNat ≤ 0x20

/-- What is read of a text. -/
def clean (cs : List Char) : List Char :=
  let cs := ((cs.dropWhile isTrimmed).reverse.dropWhile isTrimmed).reverse
  cs.filter fun c => !(c ∈ ['\t', '\n', '\r'])

/-! ## Scheme -/

def isSchemeChar (c : Char) : Bool := c.isAlphanum || c ∈ ['+', '-', '.']

/-- The scheme, in small letters, and what follows its colon. -/
def scheme? (cs : List Char) : Option (List Char × List Char) :=
  match cs.takeWhile isSchemeChar, cs.dropWhile isSchemeChar with
  | c :: s, ':' :: rest => if c.isAlpha then some ((c :: s).map Char.toLower, rest) else none
  | _, _ => none

/-! ## Authority -/

def isSlash (special : Bool) (c : Char) : Bool := c = '/' || (special && c = '\\')

/-- Whether the authority ends before `c`. -/
def endsAuthority (special : Bool) (c : Char) : Bool := isSlash special c || c = '?' || c = '#'

/-- Cuts at the last `@`. -/
def cutAtLast (cs : List Char) : Option (List Char × List Char) :=
  if cs.contains '@' then
    some ((cs.reverse.dropWhile (· ≠ '@')).tail.reverse, (cs.reverse.takeWhile (· ≠ '@')).reverse)
  else none

/-- User name and password, escaped. An empty password is left out with its colon. -/
def userInfo? (cs : List Char) : Option (List Char) :=
  let name := encode inUserInfo (cs.takeWhile (· ≠ ':'))
  let password := encode inUserInfo (cs.dropWhile (· ≠ ':')).tail
  if name.isEmpty && password.isEmpty then none
  else some (if password.isEmpty then name else name ++ ':' :: password)

/-- Cuts a host from the colon before its port. A colon inside brackets does not count. -/
def cutPort : (inside : Bool) → List Char → List Char × Option (List Char)
  | _, [] => ([], none)
  | inside, c :: cs =>
    if c = ':' && !inside then ([], some cs)
    else
      let (host, port) := cutPort (if c = '[' then true else if c = ']' then false else inside) cs
      (c :: host, port)

/-- The port, if one is given that the scheme does not use anyway. -/
def port? (scheme cs : List Char) : Option (Option Nat) :=
  if cs.all (·.isDigit) then
    let n := (readNumber? 10 cs).getD 0
    if cs.isEmpty then some none
    else if 65535 < n then none
    else some (if defaultPort scheme = some n then none else some n)
  else none

/-- The authority in `cs`, which ends where the path starts. -/
def authority? (scheme cs : List Char) : Option Authority :=
  let special := isSpecial scheme
  let (info, rest) := match cutAtLast cs with
    | some (info, rest) => (some info, rest)
    | none => (none, cs)
  let userInfo := info.bind userInfo?
  let (host, portText) := cutPort false rest
  match if special then host? host else plainHost? host with
  | none => none
  | some h =>
    if h.isEmpty && (special || portText.isSome || info.isSome) then none
    else
      match portText with
      | none => some ⟨userInfo, h, none⟩
      | some p => (port? scheme p).map fun port => ⟨userInfo, h, port⟩

/-! ## Path -/

/-- Reads the segments that slashes separate. -/
def readSegments (file : Bool) : List (List Char) → List (List Char) → List (List Char)
  | path, [] => path
  | path, [s] => appendSegment file true path (encode inPath s)
  | path, s :: ss => readSegments file (appendSegment file false path (encode inPath s)) ss

/-- Cuts at slashes. -/
def cutSegments (special : Bool) (cs : List Char) : List (List Char) :=
  splitAt '/' (cs.map fun c => if isSlash special c then '/' else c)

/-- The path in `cs`. Special URLs have at least one segment; the first slash starts the first
segment. -/
def readPath (scheme cs : List Char) : List (List Char) :=
  let special := isSpecial scheme
  let file := isFile scheme
  let path := match cutSegments special cs with
    | [[]] => if special then [[]] else []
    | [] :: ss => readSegments file [] ss
    | ss => readSegments file [] ss
  if file then dropEmpty path else path

/-! ## Query and fragment -/

/-- The parts of `cs`: what comes before a question mark or number sign, the query and the
fragment. -/
def cutTail (cs : List Char) : List Char × Option (List Char) × Option (List Char) :=
  let body := cs.takeWhile (· ≠ '#')
  let fragment := match cs.dropWhile (· ≠ '#') with
    | _ :: f => some f
    | [] => none
  let query := match body.dropWhile (· ≠ '?') with
    | _ :: q => some q
    | [] => none
  (body.takeWhile (· ≠ '?'), query, fragment)

/-! ## URLs -/

/-- The host of a file URL; the local one has no name. A drive letter is no host. -/
def fileHost? (cs : List Char) : Option (List Char) :=
  if cs.isEmpty then some []
  else (host? cs).map fun h => if h = "localhost".toList then [] else h

/-- Authority and path of a file URL. -/
def readFile? (scheme cs : List Char) : Option (Authority × List (List Char)) :=
  match cs with
  | c :: d :: rest =>
    if isSlash true c && isSlash true d then
      let host := rest.takeWhile (!endsAuthority true ·)
      if (drive? host).isSome then some (⟨none, [], none⟩, readPath scheme rest)
      else
        (fileHost? host).map fun h =>
          let path := readPath scheme (rest.dropWhile (!endsAuthority true ·))
          -- a path that starts with a drive is local
          (⟨none, if path.head?.any isDrive then [] else h, none⟩, path)
    else some (⟨none, [], none⟩, readPath scheme cs)
  | _ => some (⟨none, [], none⟩, readPath scheme cs)

/-- Whether a path without an authority would look like one. -/
def needsGuard : List (List Char) → Bool
  | [] :: _ :: _ => true
  | _ => false

/-- Reads what follows the scheme. -/
def readRest (scheme rest : List Char) : Except ReadError Url :=
  let (body, query, fragment) := cutTail rest
  let special := isSpecial scheme
  let query := query.map (encode (inQuery special))
  let fragment := fragment.map (encode inFragment)
  let withAuthority (cs : List Char) : Except ReadError Url :=
    let authority := cs.takeWhile (!endsAuthority special ·)
    let path := readPath scheme (cs.dropWhile (!endsAuthority special ·))
    match authority? scheme authority with
    | some a => .ok ⟨scheme, some a, false, path, query, fragment⟩
    | none => .error .invalid
  if isFile scheme then
    match readFile? scheme body with
    | some (a, path) => .ok ⟨scheme, some a, false, path, query, fragment⟩
    | none => .error .invalid
  else if special then withAuthority (body.dropWhile (isSlash true))
  else
    match body with
    | '/' :: '/' :: cs => withAuthority cs
    | '/' :: cs =>
      let path := readSegments false [] (cutSegments false cs)
      .ok ⟨scheme, none, needsGuard path, path, query, fragment⟩
    | _ => .error .opaquePath

/-- Reads an absolute URL that has a path of segments. -/
def read (s : String) : Except ReadError Url :=
  match scheme? (clean s.toList) with
  | some (scheme, rest) => readRest scheme rest
  | none => .error .invalid

end OfflineSchedule.Url
