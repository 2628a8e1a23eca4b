import OfflineSchedule.Yaml.Node
/-!
# Reading YAML nodes

What a node counts for where a text, a number, a truth value, a record or one of a few words is
expected. Quoting keeps a scalar from being anything but text.
-/

namespace OfflineSchedule.Yaml.Document

/-! ## Scalars -/

def isNull (text : List Char) : Bool := String.ofList text ∈ ["null", "Null", "NULL", "~"]

def coreTag (name : String) : List Char := ("tag:yaml.org,2002:" ++ name).toList

/-- The text of any scalar. -/
def text? (d : Document) (n : Node) : Option String :=
  match d.resolve n with
  | .scalar _ _ _ text => some (String.ofList text)
  | _ => none

/-- Reads a node, or nothing where it stands for null: a plain scalar that is empty or says so,
unless a tag says otherwise. A scalar tagged as null has to say so. -/
def optional? (d : Document) (read : Node → Option α) (n : Node) : Option (Option α) :=
  match d.resolve n with
  | .scalar _ tag .plain text =>
    match tag with
    | some t =>
      if t = coreTag "null" then if isNull text then some none else none
      else (read n).map some
    | none => if text.isEmpty || isNull text then some none else (read n).map some
  | _ => (read n).map some

/-- The text of a scalar that need not be text: a plain one, or a literal one with the tag of what
it is. -/
def bare? (d : Document) (name : String) (n : Node) : Option (List Char) :=
  match d.resolve n with
  | .scalar _ _ .plain text => some text
  | .scalar _ tag .literal text => if tag = some (coreTag name) then some text else none
  | _ => none

def boolText? (text : List Char) : Option Bool :=
  if String.ofList text ∈ ["true", "True", "TRUE"] then some true
  else if String.ofList text ∈ ["false", "False", "FALSE"] then some false
  else none

def bool? (d : Document) (n : Node) : Option Bool := (d.bare? "bool" n).bind boolText?

/-- The number with the given digits, of which there is at least one. -/
def digits? (base : Nat) (cs : List Char) : Option Nat :=
  if cs.isEmpty then none
  else
    cs.foldlM (fun n c =>
      (Url.hexValue? c).bind fun d => if d < base then some (n * base + d) else none) 0

/-- An unsigned number: decimal without leading zeros, or with the base in front. -/
def natText? (text : List Char) : Option Nat :=
  let cs := match text with
    | '+' :: cs => cs
    | cs => cs
  match cs with
  | '0' :: 'x' :: ds => digits? 16 ds
  | '0' :: 'o' :: ds => digits? 8 ds
  | '0' :: 'b' :: ds => digits? 2 ds
  | '0' :: _ :: _ => none
  | ds => digits? 10 ds

/-- An unsigned number below the limit. -/
def nat? (d : Document) (limit : Nat) (n : Node) : Option Nat :=
  ((d.bare? "int" n).bind natText?).filter (· < limit)

/-- One of the words of `words`, as a text or as the tag of nothing. -/
def word? (d : Document) (words : List (String × α)) (n : Node) : Option α :=
  let find (w : List Char) : Option α := (words.find? (·.1.toList = w)).map (·.2)
  match d.resolve n with
  | .scalar _ (some ('!' :: w)) style text =>
    if style = .plain && (text.isEmpty || isNull text) then find w else none
  | .scalar _ _ _ text => find text
  | _ => none

/-! ## Records -/

/-- The names of the members with their nodes. Every name is a scalar. -/
def named? (d : Document) : List (Node × Node) → Option (List (String × Node))
  | [] => some []
  | (k, v) :: ms =>
    match d.text? k, named? d ms with
    | some k, some ms => some ((k, v) :: ms)
    | _, _ => none

def isOnce : List (String × Node) → Bool
  | [] => true
  | (k, _) :: ms => !ms.any (·.1 = k) && isOnce ms

/-- The fields of the given names, each of which stands once at most. Nothing at all is a record
without fields. -/
def record? (d : Document) (names : List String) (n : Node) : Option (List (String × Node)) :=
  match d.resolve n with
  | .mapping _ _ members =>
    match d.named? members with
    | some ms =>
      let ms := ms.filter (names.contains ·.1)
      if isOnce ms then some ms else none
    | none => none
  | .scalar _ _ .plain [] => some []
  | _ => none

/-- A field that has to be there. -/
def required? (fields : List (String × Node)) (name : String) (read : Node → Option α) :
    Option α :=
  (fields.find? (·.1 = name)).bind fun f => read f.2

/-- A field that may be missing. -/
def withDefault? (fields : List (String × Node)) (name : String) (default : α)
    (read : Node → Option α) : Option α :=
  match fields.find? (·.1 = name) with
  | some f => read f.2
  | none => some default

end OfflineSchedule.Yaml.Document
