import OfflineSchedule.Text.Blank
import OfflineSchedule.Text.Lowercase
/-!
# Watch-mode commands

A typed line names a command by its name, by an alias, or by the beginning of either. Of the
commands that match, the best is taken: an exact name beats an exact alias, an alias beats the
beginning of a name, and that beats the beginning of an alias. Ties keep the order of `Verb.all`.
-/

namespace OfflineSchedule

inductive Verb where
  | use | reload | clear | status | help | quit
deriving DecidableEq, Repr

namespace Verb

def all : List Verb := [use, reload, clear, status, help, quit]

def name : Verb → String
  | use => "use"
  | reload => "reload"
  | clear => "clear"
  | status => "status"
  | help => "help"
  | quit => "quit"

def aliases : Verb → List String
  | use => ["u", "switch", "con"]
  | reload => ["r", "refresh"]
  | clear => ["c", "purge"]
  | status => ["s", "show"]
  | help => ["h", "?"]
  | quit => ["q", "exit"]

def description : Verb → String
  | use => "Switch to another con instance"
  | reload => "Refetch every resource"
  | clear => "Drop the local cache"
  | status => "Print the current summary"
  | help => "List commands"
  | quit => "Exit watch mode"

/-- Only `use` expects a word after it. -/
def takesArgument : Verb → Bool
  | use => true
  | _ => false

/-! ## Matching -/

/-- How well the lower-case text `w` names a command: 0 is best, `none` is no match. -/
def rank (w : List Char) (v : Verb) : Option Nat :=
  if v.name.toList = w then some 0
  else if v.aliases.any (·.toList = w) then some 1
  else if w.isPrefixOf v.name.toList then some 2
  else if v.aliases.any (w.isPrefixOf ·.toList) then some 3
  else none

/-- The commands that `input` may mean, best first. An empty input may mean any of them. -/
def suggestions (input : List Char) : List Verb :=
  let w := Text.lowercase input
  if w.isEmpty then all
  else
    let ranked := all.filterMap fun v => (rank w v).map fun r => (v, r)
    (ranked.mergeSort fun a b => a.2 ≤ b.2).map (·.1)

end Verb

/-! ## Lines -/

/-- What a line asks for. -/
inductive Action where
  | use (con : String)
  | reload
  | clear
  | status
  | help
  | quit
deriving DecidableEq, Repr

/-- Why a line asks for nothing. -/
inductive CommandError where
  | empty
  | unknown (word : String)
  | missingArgument (verb : Verb)
deriving DecidableEq, Repr

def CommandError.message : CommandError → String
  | empty => "no command given"
  | unknown word => "unknown command '" ++ word ++ "' (try 'help')"
  | missingArgument verb => "'" ++ verb.name ++ "' needs an argument"

namespace Action

/-- The action of a command, given the word after it. -/
def ofVerb (argument : Option (List Char)) : Verb → Except CommandError Action
  | .use =>
    match argument with
    | some w => .ok (.use (String.ofList w))
    | none => .error (.missingArgument .use)
  | .reload => .ok .reload
  | .clear => .ok .clear
  | .status => .ok .status
  | .help => .ok .help
  | .quit => .ok .quit

/-- Reads a line: the first word names the command, the second is its argument, and what
follows is ignored. -/
def ofLine (line : String) : Except CommandError Action :=
  match Text.words line.toList with
  | [] => .error .empty
  | w :: rest =>
    match Verb.suggestions w with
    | [] => .error (.unknown (String.ofList w))
    | v :: _ => ofVerb rest.head? v

end Action

/-! ## Help -/

/-- Fills `s` with spaces on the right up to `width` characters. -/
def padRight (width : Nat) (s : String) : String :=
  s ++ String.ofList (List.replicate (width - s.length) ' ')

def Verb.helpLine (v : Verb) : String :=
  let usage := if v.takesArgument then v.name ++ " <instance>" else v.name
  "  " ++ padRight 16 usage ++ " " ++ v.description ++ " (" ++ ", ".intercalate v.aliases ++ ")"

/-- One line per command. -/
def helpText : String := "\n".intercalate (Verb.all.map Verb.helpLine)

end OfflineSchedule
