import OfflineSchedule.Yaml.Token
/-!
# YAML nodes

The one document of a YAML text as a tree. Anchors and aliases are numbered before the tree is
built: an anchor gets the number of names that have been anchored before it, so that anchoring a
name again can give two anchors one number, and an alias gets the number that its name has at that
place. A number then stands for the last node that has it.
-/

namespace OfflineSchedule.Yaml

inductive Node where
  | alias (number : Nat)
  | scalar (anchor : Option Nat) (tag : Option (List Char)) (style : Style) (text : List Char)
  | sequence (anchor : Option Nat) (tag : Option (List Char)) (items : List Node)
  | mapping (anchor : Option Nat) (tag : Option (List Char)) (members : List (Node × Node))
deriving Repr, Inhabited

/-! ## Numbering anchors -/

/-- A token whose anchor or alias is a number, and whose tag has its handle expanded. -/
inductive Mark where
  | token (t : Token)
  | anchor (number : Nat)
  | alias (number : Nat)
  | tag (t : List Char)
deriving Repr

/-- What the names and handles mean at some place. -/
structure Names where
  anchors : List (List Char × Nat) := []
  /-- The handles that the document declares. -/
  handles : List (List Char × List Char) := []
  hasVersion : Bool := false

namespace Names

def standardHandles : List (List Char × List Char) :=
  [(['!'], ['!']), (['!', '!'], "tag:yaml.org,2002:".toList)]

def lookUp (name : List Char) (ns : List (List Char × α)) : Option α :=
  (ns.find? (·.1 = name)).map (·.2)

/-- The number of a new anchor. -/
def anchorNumber (n : Names) : Nat := n.anchors.length

def addAnchor (name : List Char) (n : Names) : Names :=
  { n with anchors := (name, n.anchorNumber) :: n.anchors.filter (·.1 ≠ name) }

def expand? (t : TagName) (n : Names) : Option (List Char) :=
  if t.handle.isEmpty then some t.suffix
  else (lookUp t.handle (n.handles ++ standardHandles)).map (· ++ t.suffix)

/-- Reads a token: its mark, and the names afterwards. -/
def step (n : Names) : Token → Option (Mark × Names)
  | .anchor name => some (.anchor n.anchorNumber, n.addAnchor name)
  | .alias name => (lookUp name n.anchors).map fun k => (.alias k, n)
  | .tag t => (n.expand? t).map fun t => (.tag t, n)
  | .version major minor =>
    if n.hasVersion || major ≠ 1 || !(minor = 1 || minor = 2) then none
    else some (.token (.version major minor), { n with hasVersion := true })
  | .tagDirective handle expansion =>
    if (lookUp handle n.handles).isSome then none
    else
      some (.token (.tagDirective handle expansion),
        { n with handles := (handle, expansion) :: n.handles })
  | t => some (.token t, n)

def run : Names → List Token → Option (List Mark)
  | _, [] => some []
  | n, t :: ts =>
    match n.step t with
    | some (m, n) => (run n ts).map (m :: ·)
    | none => none

end Names

/-! ## Building the tree -/

/-- What stands in front of the content of a node. -/
structure Properties where
  anchor : Option Nat := none
  tag : Option (List Char) := none

namespace Properties

def isEmpty (p : Properties) : Bool := p.anchor.isNone && p.tag.isNone

/-- Reads an anchor and a tag, in any order. -/
def read : List Mark → Properties × List Mark
  | .anchor a :: .tag t :: ms => (⟨some a, some t⟩, ms)
  | .tag t :: .anchor a :: ms => (⟨some a, some t⟩, ms)
  | .anchor a :: ms => (⟨some a, none⟩, ms)
  | .tag t :: ms => (⟨none, some t⟩, ms)
  | ms => ({}, ms)

/-- The tag of a scalar. An exclamation mark alone is no tag. -/
def scalarTag (p : Properties) : Option (List Char) := p.tag.filter (· ≠ ['!'])

def scalar (p : Properties) (style : Style) (text : List Char) : Node :=
  .scalar p.anchor p.scalarTag style text

/-- The node without content that the properties alone make. -/
def alone (p : Properties) : Option Node :=
  if p.isEmpty then none else some (.scalar p.anchor p.tag .plain [])

end Properties

namespace Node

/-- A node that is not written. -/
def missing : Node := .scalar none none .plain []

/-- Whether the next token is one of the given ones, or none is left. -/
def isNext (ms : List Mark) (ts : List Token) : Bool :=
  match ms with
  | .token t :: _ => t ∈ ts
  | [] => true
  | _ => false

mutual

/-- Reads a node. `block`: it may be a block; `indentless`: it may be a sequence that is not
indented below its key. -/
def read (block indentless : Bool) : (fuel : Nat) → List Mark → Option (Node × List Mark)
  | 0, _ => none
  | fuel + 1, ms =>
    match ms with
    | .alias k :: rest => some (.alias k, rest)
    | _ =>
      let (p, ms) := Properties.read ms
      match ms with
      | .token (.scalar style text) :: rest => some (p.scalar style text, rest)
      | .token .openSequence :: rest =>
        (flowItems fuel true rest).map fun (ns, rest) => (.sequence p.anchor p.tag ns, rest)
      | .token .openMapping :: rest =>
        (flowMembers fuel true rest).map fun (ns, rest) => (.mapping p.anchor p.tag ns, rest)
      | .token .entry :: _ =>
        if indentless then
          (entries fuel true ms).map fun (ns, rest) => (.sequence p.anchor p.tag ns, rest)
        else p.alone.map (·, ms)
      | .token .sequenceStart :: rest =>
        if block then
          (entries fuel false rest).map fun (ns, rest) => (.sequence p.anchor p.tag ns, rest)
        else p.alone.map (·, ms)
      | .token .mappingStart :: rest =>
        if block then
          (members fuel rest).map fun (ns, rest) => (.mapping p.anchor p.tag ns, rest)
        else p.alone.map (·, ms)
      | _ => p.alone.map (·, ms)

/-- The entries of a block sequence. One that is not indented ends before any other token. -/
def entries (fuel : Nat) (indentless : Bool) (ms : List Mark) : Option (List Node × List Mark) :=
  match fuel with
  | 0 => none
  | fuel + 1 =>
    match ms with
    | .token .entry :: rest =>
      let ends : List Token := if indentless then [.entry, .key, .value, .blockEnd]
        else [.entry, .blockEnd]
      let item := if isNext rest ends then some (missing, rest) else read true false fuel rest
      match item with
      | some (n, rest) => (entries fuel indentless rest).map fun (ns, rest) => (n :: ns, rest)
      | none => none
    | .token .blockEnd :: rest => some ([], if indentless then ms else rest)
    | _ => if indentless then some ([], ms) else none

/-- The members of a block mapping. -/
def members (fuel : Nat) (ms : List Mark) : Option (List (Node × Node) × List Mark) :=
  match fuel with
  | 0 => none
  | fuel + 1 =>
    let ends : List Token := [.key, .value, .blockEnd]
    let key := match ms with
      | .token .key :: rest =>
        if isNext rest ends then some (missing, rest) else read true true fuel rest
      | .token .value :: _ => none
      | _ => none
    match ms with
    | .token .blockEnd :: rest => some ([], rest)
    | _ =>
      match key with
      | none => none
      | some (k, rest) =>
        let value := match rest with
          | .token .value :: rest =>
            if isNext rest ends then some (missing, rest) else read true true fuel rest
          | _ => some (missing, rest)
        match value with
        | some (v, rest) => (members fuel rest).map fun (ns, rest) => ((k, v) :: ns, rest)
        | none => none

/-- The items of a flow sequence, in which a key makes a mapping with one member. -/
def flowItems (fuel : Nat) (first : Bool) (ms : List Mark) : Option (List Node × List Mark) :=
  match fuel with
  | 0 => none
  | fuel + 1 =>
    match ms with
    | .token .closeSequence :: rest => some ([], rest)
    | _ =>
      let start := if first then some ms
        else match ms with
          | .token .comma :: rest => some rest
          | _ => none
      match start with
      | none => none
      | some (.token .closeSequence :: rest) => some ([], rest)
      | some (.token .key :: rest) =>
        match flowPair fuel rest with
        | some (n, rest) => (flowItems fuel false rest).map fun (ns, rest) => (n :: ns, rest)
        | none => none
      | some rest =>
        match read false false fuel rest with
        | some (n, rest) => (flowItems fuel false rest).map fun (ns, rest) => (n :: ns, rest)
        | none => none

/-- The mapping of a key in a flow sequence. What stands in the place of a missing key is passed
over. -/
def flowPair (fuel : Nat) (ms : List Mark) : Option (Node × List Mark) :=
  match fuel with
  | 0 => none
  | fuel + 1 =>
    let key := if isNext ms [.value, .comma, .closeSequence] then some (missing, ms.tail)
      else read false false fuel ms
    match key with
    | none => none
    | some (k, rest) =>
      let value := match rest with
        | .token .value :: rest =>
          if isNext rest [.comma, .closeSequence] then some (missing, rest)
          else read false false fuel rest
        | _ => some (missing, rest)
      value.map fun (v, rest) => (.mapping none none [(k, v)], rest)

/-- The members of a flow mapping. -/
def flowMembers (fuel : Nat) (first : Bool) (ms : List Mark) :
    Option (List (Node × Node) × List Mark) :=
  match fuel with
  | 0 => none
  | fuel + 1 =>
    match ms with
    | .token .closeMapping :: rest => some ([], rest)
    | _ =>
      let start := if first then some ms
        else match ms with
          | .token .comma :: rest => some rest
          | _ => none
      match start with
      | none => none
      | some (.token .closeMapping :: rest) => some ([], rest)
      | some (.token .key :: rest) =>
        let key := if isNext rest [.value, .comma, .closeMapping] then some (missing, rest)
          else read false false fuel rest
        match key with
        | none => none
        | some (k, rest) =>
          let value := match rest with
            | .token .value :: rest =>
              if isNext rest [.comma, .closeMapping] then some (missing, rest)
              else read false false fuel rest
            | _ => some (missing, rest)
          match value with
          | some (v, rest) =>
            (flowMembers fuel false rest).map fun (ns, rest) => ((k, v) :: ns, rest)
          | none => none
      | some rest =>
        match read false false fuel rest with
        | some (k, rest) =>
          (flowMembers fuel false rest).map fun (ns, rest) => ((k, missing) :: ns, rest)
        | none => none

end

/-! ## Documents -/

def isDirective : Mark → Bool
  | .token (.version _ _) | .token (.tagDirective _ _) => true
  | _ => false

def isDocumentEnd : Mark → Bool
  | .token .documentEnd => true
  | _ => false

/-- Reads the content of a document that has a mark of its own. -/
def marked? (ms : List Mark) : Option (Node × List Mark) :=
  match ms with
  | .token .documentStart :: rest =>
    if rest.head?.all isDirective || isNext rest [.documentStart, .documentEnd] then
      some (missing, rest)
    else read true false (2 * ms.length + 2) rest
  | _ => none

/-- The one document of a text; `none` if there is no document or more than one. -/
def ofMarks (ms : List Mark) : Option Node :=
  let content := match ms with
    | [] => none
    | m :: _ =>
      if isDirective m || isNext ms [.documentStart] then marked? (ms.dropWhile isDirective)
      else read true false (2 * ms.length + 2) ms
  match content with
  | some (n, rest) => if (rest.dropWhile isDocumentEnd).isEmpty then some n else none
  | none => none

def ofText (cs : List Char) : Option Node :=
  ((Token.lex cs).bind (Names.run {})).bind ofMarks

/-! ## Aliases -/

mutual

/-- The anchored nodes in the order of their anchors. -/
def anchored : Node → List (Nat × Node)
  | .alias _ => []
  | .scalar a t s x => here a (.scalar a t s x)
  | .sequence a t ns => here a (.sequence a t ns) ++ anchoredItems ns
  | .mapping a t ms => here a (.mapping a t ms) ++ anchoredMembers ms

def anchoredItems : List Node → List (Nat × Node)
  | [] => []
  | n :: ns => anchored n ++ anchoredItems ns

def anchoredMembers : List (Node × Node) → List (Nat × Node)
  | [] => []
  | (k, v) :: ms => anchored k ++ anchored v ++ anchoredMembers ms

def here (a : Option Nat) (n : Node) : List (Nat × Node) :=
  match a with
  | some k => [(k, n)]
  | none => []

end

end Node

/-- A document and the nodes that its aliases stand for. -/
structure Document where
  root : Node
  /-- Later anchors first. -/
  targets : List (Nat × Node)

namespace Document

def ofText (cs : List Char) : Option Document :=
  (Node.ofText cs).map fun n => ⟨n, n.anchored.reverse⟩

/-- The node itself, or the one that an alias stands for. An alias never stands for an alias. -/
def resolve (d : Document) : Node → Node
  | .alias k => ((d.targets.find? (·.1 = k)).map (·.2)).getD Node.missing
  | n => n

end Document

end OfflineSchedule.Yaml
