import OfflineSchedule.Url.Host
/-!
# URLs

A URL in its parts, each in the form in which it is written. The path is a list of segments, each
of which follows a slash. URLs whose path is opaque, such as `mailto:` addresses, are not
represented further.
-/

namespace OfflineSchedule

structure Authority where
  /-- User name and password, escaped. -/
  userInfo : Option (List Char)
  host : List Char
  port : Option Nat
deriving DecidableEq, Repr

structure Url where
  scheme : List Char
  authority : Option Authority
  /-- The path is led by `/.`, so that it is not taken for an authority. -/
  isGuarded : Bool := false
  path : List (List Char)
  query : Option (List Char)
  fragment : Option (List Char)
deriving DecidableEq, Repr

namespace Url

/-! ## Schemes -/

def isFile (scheme : List Char) : Bool := scheme = ['f', 'i', 'l', 'e']

/-- The port that a scheme uses if none is given. -/
def defaultPort (scheme : List Char) : Option Nat :=
  match String.ofList scheme with
  | "http" | "ws" => some 80
  | "https" | "wss" => some 443
  | "ftp" => some 21
  | _ => none

/-- The schemes of which the syntax knows the meaning. -/
def isSpecial (scheme : List Char) : Bool := (defaultPort scheme).isSome || isFile scheme

/-! ## Paths -/

def isSingleDot (s : List Char) : Bool :=
  s.map Char.toLower ∈ [['.'], ['%', '2', 'e']]

def isDoubleDot (s : List Char) : Bool :=
  s.map Char.toLower ∈
    [['.', '.'], ['.', '%', '2', 'e'], ['%', '2', 'e', '.'], ['%', '2', 'e', '%', '2', 'e']]

/-! ### Drive letters

The first segment of a file path may be a drive letter, which is never removed. -/

def isDrive : List Char → Bool
  | [c, ':'] => c.isAlpha
  | _ => false

/-- A drive letter; its second character may have been a bar. -/
def drive? : List Char → Option (List Char)
  | [c, d] => if c.isAlpha && (d = ':' || d = '|') then some [c, ':'] else none
  | _ => none

/-- Cuts a drive letter off a longer segment. -/
def cutDrive? : List Char → Option (List Char × List Char)
  | c :: ':' :: d :: s => if c.isAlpha then some ([c, ':'], d :: s) else none
  | _ => none

/-! ### Segments -/

/-- Removes the last segment, but no drive letter. -/
def shorten (file : Bool) (path : List (List Char)) : List (List Char) :=
  match path with
  | [d] => if file && isDrive d then [d] else []
  | path => path.dropLast

/-- Appends an escaped segment, which another one follows unless it is `last`. A single dot stays
where it is, and a double dot goes back. -/
def appendPlain (file last : Bool) (path : List (List Char)) (s : List Char) : List (List Char) :=
  if isDoubleDot s then
    let path := shorten file path
    if last then path ++ [[]] else path
  else if isSingleDot s then if last then path ++ [[]] else path
  else path ++ [s]

/-- Appends an escaped segment, minding drive letters. -/
def appendSegment (file last : Bool) (path : List (List Char)) (s : List Char) :
    List (List Char) :=
  if file && path.isEmpty then
    match drive? s, cutDrive? s with
    | some d, _ => [d]
    | none, some (d, s) => appendPlain file last [d] s
    | none, none => appendPlain file last [] s
  else appendPlain file last path s

/-- Drops empty segments in front of others. -/
def dropEmpty : List (List Char) → List (List Char)
  | [] :: s :: path => dropEmpty (s :: path)
  | path => path

/-- Drops the last segment if it is empty and not the only one. -/
def popEmpty (path : List (List Char)) : List (List Char) :=
  if 1 < path.length && path.getLast? = some [] then path.dropLast else path

/-- A text as a segment: exactly one or two dots are no segment, tabs and line breaks are dropped,
and the rest is escaped. A segment takes the place of the empty segment of an empty path. -/
def pushSegment (scheme : List Char) (path : List (List Char)) (text : List Char) :
    List (List Char) :=
  if text = ['.'] || text = ['.', '.'] then path
  else
    let s := encode (inSegment (isSpecial scheme)) (text.filter fun c => !(c ∈ ['\t', '\n', '\r']))
    let file := isFile scheme
    let path := appendSegment file true (if path = [[]] then [] else path) s
    if file then dropEmpty path else path

/-- The URL with further segments behind its path. -/
def push (u : Url) (segments : List (List Char)) : Url :=
  { u with path := segments.foldl (pushSegment u.scheme) (popEmpty u.path) }

/-! ## Text -/

def Authority.chars (a : Authority) : List Char :=
  (match a.userInfo with
    | some i => i ++ ['@']
    | none => []) ++ a.host ++
  match a.port with
  | some p => ':' :: decimal p
  | none => []

def pathChars (path : List (List Char)) : List Char := path.flatMap ('/' :: ·)

/-- The path and the query, as they are requested. -/
def requestTarget (u : Url) : List Char :=
  pathChars u.path ++
    match u.query with
    | some q => '?' :: q
    | none => []

def chars (u : Url) : List Char :=
  u.scheme ++ ':' ::
    (match u.authority with
      | some a => '/' :: '/' :: Authority.chars a
      | none => if u.isGuarded then ['/', '.'] else []) ++
    u.requestTarget ++
    match u.fragment with
    | some f => '#' :: f
    | none => []

end Url

end OfflineSchedule
