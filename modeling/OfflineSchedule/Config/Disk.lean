/-!
# Files and directories

A tree of files, addressed by paths. A path is followed step by step, so that a step back out of a
directory that does not exist leads nowhere.
-/

namespace OfflineSchedule

/-- The names on the way from the root. -/
abbrev Place := List String

/-- What is at a place. -/
inductive Entry where
  | file (bytes : List UInt8)
  | directory
deriving DecidableEq, Repr

/-- The entries that were made. The places above them are directories. -/
structure Disk where
  entries : List (Place × Entry) := []
deriving Repr

namespace Disk

def isAbove : Place → Place → Bool
  | [], _ :: _ => true
  | x :: xs, y :: ys => x = y && isAbove xs ys
  | _, _ => false

/-- What is at a place. The root is always there. -/
def at? (d : Disk) (p : Place) : Option Entry :=
  match d.entries.find? (·.1 = p) with
  | some (_, e) => some e
  | none => if p.isEmpty || d.entries.any (isAbove p ·.1) then some .directory else none

def isDirectory (d : Disk) (p : Place) : Bool := d.at? p = some .directory

/-- The steps of a path. A slash at the end asks for a directory. -/
def steps (path : String) : List String := path.splitOn "/"

/-- The place of a path that starts at `p`. -/
def follow? (d : Disk) : Place → List String → Option Place
  | p, [] => some p
  | p, s :: ss =>
    if !d.isDirectory p then none
    else if s = "" || s = "." then follow? d p ss
    else if s = ".." then follow? d p.dropLast ss
    else
      let q := p ++ [s]
      if (d.at? q).isSome then follow? d q ss else none

/-- Where a path starts. -/
def start (cwd : Place) (path : String) : Place := if path.startsWith "/" then [] else cwd

/-- The place of a path that exists. -/
def place? (d : Disk) (cwd : Place) (path : String) : Option Place :=
  if path.isEmpty then none else d.follow? (start cwd path) (steps path)

/-- What a path leads to. -/
def find? (d : Disk) (cwd : Place) (path : String) : Option Entry :=
  (d.place? cwd path).bind d.at?

/-! ## Making files -/

/-- The place of a path, where directories that are missing on the way are made. -/
def make? (d : Disk) : Place → List String → Option Place
  | p, [] => some p
  | p, s :: ss =>
    if (d.at? p).any (· ≠ .directory) then none
    else if s = "" || s = "." then make? d p ss
    else if s = ".." then make? d p.dropLast ss
    else make? d (p ++ [s]) ss

/-- Puts an empty file at a path unless there is a file, with the directories above it. -/
def create? (d : Disk) (cwd : Place) (path : String) : Option (Place × Disk) :=
  match d.make? (start cwd path) (steps path) with
  | none => none
  | some p =>
    match d.at? p with
    | some .directory => none
    | some (.file _) => some (p, d)
    | none => some (p, ⟨(p, .file []) :: d.entries⟩)

end Disk

end OfflineSchedule
