import OfflineSchedule.Command
/-!
# Arguments

Options come first, each at most once, and then the command. An option takes its value from its own
argument or from the next one. Asking for help or for the version ends the reading at once.
-/

namespace OfflineSchedule.CommandLine

/-! ## Commands and options -/

inductive Command where
  | summary
  | reload
  | clear
  | watch
deriving DecidableEq, Repr

namespace Command

def all : List Command := [summary, reload, clear, watch]

def name : Command → String
  | summary => "show"
  | reload => "reload"
  | clear => "clear"
  | watch => "watch"

def description : Command → String
  | summary => "Print a summary of the con (default)"
  | reload => "Refetch every resource, then print the summary"
  | clear => "Drop the local cache"
  | watch => "Keep running, follow updates and read commands from stdin"

def ofName? (name : String) : Option Command := all.find? (·.name = name)

end Command

inductive Setting where
  /-- The path of the configuration file. -/
  | config
  /-- The con to show. -/
  | con
deriving DecidableEq, Repr

namespace Setting

def all : List Setting := [config, con]

def long : Setting → String
  | config => "config"
  | con => "instance"

def short : Setting → Char
  | config => 'c'
  | con => 'i'

end Setting

/-- What the arguments ask for. -/
structure Arguments where
  config : Option String := none
  con : Option String := none
  command : Command := .summary
deriving DecidableEq, Repr

inductive Request where
  | run (a : Arguments)
  /-- Prints a text about the program. -/
  | print (text : String)
deriving DecidableEq, Repr

/-! ## Texts -/

def versionText : String := "consched 0.1.0\n"

def helpRow (width : Nat) (row : String × String) : String :=
  "  " ++ padRight width row.1 ++ "  " ++ row.2 ++ "\n"

/-- Two columns. -/
def helpRows (rows : List (String × String)) : String :=
  String.join (rows.map (helpRow (rows.foldl (fun w r => max w r.1.length) 0)))

def usageText : String :=
  "An offline-first terminal client for convention schedules\n\n" ++
    "Usage: consched [OPTIONS] [COMMAND]\n\nCommands:\n" ++
    helpRows (Command.all.map (fun c => (c.name, c.description)) ++
      [("help", "Print this message or the help of the given subcommand(s)")]) ++
    "\nOptions:\n" ++
    helpRows [("-c, --config <CONFIG>",
        "Path to config file (default: $XDG_CONFIG_HOME/consched/config.yaml)"),
      ("-i, --instance <INSTANCE>", "Con instance to use"), ("-h, --help", "Print help"),
      ("-V, --version", "Print version")]

def Command.usageText (c : Command) : String :=
  c.description ++ "\n\nUsage: consched " ++ c.name ++ "\n\nOptions:\n" ++
    helpRows [("-h, --help", "Print help")]

/-! ## Reading -/

/-- Sets an option that has not been set. A path is not empty. -/
def Arguments.set? (s : Setting) (value : String) (a : Arguments) : Option Arguments :=
  match s with
  | .config => if a.config.isSome || value.isEmpty then none else some { a with config := value }
  | .con => if a.con.isSome then none else some { a with con := value }

/-- An argument in its form. -/
inductive Form where
  /-- Ends the options. -/
  | stop
  | long (name : String) (value : Option String)
  | short (letter : Char) (attached : List Char)
  | word (text : String)
deriving DecidableEq, Repr

/-- The text before the first equals sign, and the text behind it. -/
def splitValue (cs : List Char) : String × Option String :=
  (String.ofList (cs.takeWhile (· ≠ '=')),
    match cs.dropWhile (· ≠ '=') with
    | _ :: value => some (String.ofList value)
    | [] => none)

def Form.of (argument : String) : Form :=
  match argument.toList with
  | ['-', '-'] => .stop
  | '-' :: '-' :: cs =>
    let (name, value) := splitValue cs
    .long name value
  | '-' :: letter :: cs => .short letter cs
  | _ => .word argument

/-- The value that is attached to a letter. -/
def attachedValue : List Char → Option String
  | [] => none
  | '=' :: value => some (String.ofList value)
  | value => some (String.ofList value)

/-- Reads what follows a command. -/
def readTail (c : Command) (a : Arguments) : List String → Option Request
  | [] => some (.run { a with command := c })
  | argument :: rest =>
    match Form.of argument with
    | .stop => if rest.isEmpty then some (.run { a with command := c }) else none
    | .long "help" none | .short 'h' _ => some (.print c.usageText)
    | _ => none

/-- Reads which help is asked for. -/
def readHelp : List String → Option Request
  | [] => some (.print usageText)
  | [name] =>
    if name = "help" then some (.print usageText)
    else (Command.ofName? name).map fun c => .print c.usageText
  | _ => none

/-- Reads arguments. `waiting` is an option whose value is the next argument. -/
def read (waiting : Option Setting) (a : Arguments) : List String → Option Request
  | [] => if waiting.isSome then none else some (.run a)
  | argument :: rest =>
    match waiting, Form.of argument with
    | some s, .word value => (a.set? s value).bind fun a => read none a rest
    | some _, _ => none
    | none, .stop => if rest.isEmpty then some (.run a) else none
    | none, .long "help" none => some (.print usageText)
    | none, .long "version" none => some (.print versionText)
    | none, .long name value =>
      match Setting.all.find? (·.long = name), value with
      | some s, some value => (a.set? s value).bind fun a => read none a rest
      | some s, none => read (some s) a rest
      | none, _ => none
    | none, .short 'h' _ => some (.print usageText)
    | none, .short 'V' _ => some (.print versionText)
    | none, .short letter attached =>
      match Setting.all.find? (·.short = letter), attachedValue attached with
      | some s, some value => (a.set? s value).bind fun a => read none a rest
      | some s, none => read (some s) a rest
      | none, _ => none
    | none, .word name =>
      match Command.ofName? name with
      | some c => readTail c a rest
      | none => if name = "help" then readHelp rest else none

/-- What the arguments ask for, unless they are wrong. -/
def Request.ofArguments (arguments : List String) : Option Request := read none {} arguments

end OfflineSchedule.CommandLine
