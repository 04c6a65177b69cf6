import RdfStore.Results.Format
import RdfStore.Turtle.Format

/-!
# The command line

A command line names a task and options. Some options may stand before the task or after
it; what stands after it counts when both are given. An option for several values takes all
words up to the next option, so a task that follows it is taken for a value.

The first word that asks for help or for the version, or that cannot be understood, decides.
The values of an option are looked at when the next option comes, or at the end; the options
before the name of a task after those of the task.

All this is documented behaviour of version 4 of the library `clap`, whose derived parsers read the
command line and write the texts of help. The wording of its errors is left out.
-/

set_option autoImplicit false

namespace RdfStore.Cli

/-! ## Requests -/

/-- How the answer to a query is shown. -/
inductive Display where
  | table
  | as (format : Results.Format)
deriving DecidableEq

/-- What to do once the data is loaded. -/
inductive Task where
  | query (text : String) (display : Display)
  | dump (format : Turtle.Format)
  | stats
  | shell (display : Display)

/-- A task with the options that all tasks have. -/
structure Invocation where
  /-- The names of data files, in the order of loading. -/
  data : List String
  base : Option String
  config : Option String
  logLevel : Option String
  task : Task

/-- The names of tasks. -/
inductive TaskName where
  | query | dump | stats | shell
deriving DecidableEq

/-- What help can be asked for. -/
inductive Topic where
  | program
  | task (name : TaskName)
  /-- The request for help itself. -/
  | help
deriving DecidableEq

/-- What a command line asks for. -/
inductive Request where
  | run (invocation : Invocation)
  | version
  | help (topic : Topic)

/-- Why a command line is refused. -/
inductive UsageError where
  | unexpectedArgument (text : String)
  | missingValue (option : String)
  | invalidValue (option value : String)
  | repeatedOption (option : String)
  | missingTask
  | missingQuery

/-- The wording of a refusal. -/
def UsageError.message : UsageError → String
  | .unexpectedArgument text => "unexpected argument '" ++ text ++ "' found"
  | .missingValue option => "a value is required for '--" ++ option ++ "' but none was supplied"
  | .invalidValue option value => "invalid value '" ++ value ++ "' for '--" ++ option ++ "'"
  | .repeatedOption option => "the argument '--" ++ option ++ "' cannot be used multiple times"
  | .missingTask => "a subcommand is required but one was not provided"
  | .missingQuery => "the following required arguments were not provided: <SPARQL>"

/-! ## Names -/

/-- The task of a name. -/
def TaskName.ofName? (name : String) : Option TaskName :=
  [("query", .query), ("dump", .dump), ("stats", .stats), ("shell", .shell)].lookup name

/-- The options that take values. -/
inductive Opt where
  | data | base | config | logLevel | format
deriving DecidableEq

/-- The options with their names. -/
def Opt.names : List (String × Opt) :=
  [("data", .data), ("base", .base), ("config", .config), ("log-level", .logLevel),
    ("format", .format)]

/-- The name of an option. -/
def Opt.name (o : Opt) : String :=
  ((Opt.names.find? fun entry => entry.2 = o).map Prod.fst).getD ""

/-- The display of a name. -/
def Display.ofName? (name : String) : Option Display :=
  if name = "table" then some .table else (Results.Format.names.lookup name).map .as

/-- Whether an option can stand after the name of a task, or before it. -/
def Opt.isAllowed (o : Opt) (task : Option TaskName) : Bool :=
  o ≠ .format || task = some .query || task = some .shell

/-! ## Reading -/

/-- What is given before the name of the task, or after it. -/
structure Given where
  data : Option (List String) := none
  base : Option String := none
  config : Option String := none
  logLevel : Option String := none
  display : Option Display := none
  asLines : Bool := false
  query : Option String := none

/-- Keeps the value of an option that is given once. -/
def once {α : Type} (o : Opt) (old : Option α) (new : α) : Except UsageError (Option α) :=
  if old.isSome then .error (.repeatedOption o.name) else .ok (some new)

/-- The name of a file, which is not empty. -/
def fileName (o : Opt) (value : String) : Except UsageError String :=
  if value.isEmpty then .error (.missingValue o.name) else .ok value

/-- Keeps a value of an option. -/
def Given.store (g : Given) (o : Opt) (value : String) : Except UsageError Given :=
  match o with
  | .data => do return { g with data := some (g.data.getD [] ++ [← fileName o value]) }
  | .base => do return { g with base := ← once o g.base value }
  | .config => do return { g with config := ← once o g.config (← fileName o value) }
  | .logLevel => do return { g with logLevel := ← once o g.logLevel value }
  | .format =>
    match Display.ofName? value with
    | some display => do return { g with display := ← once o g.display display }
    | none => .error (.invalidValue o.name value)

/-- An option with the values that it has so far. -/
structure Pending where
  option : Opt
  values : List String

/-- Whether an option takes one more word as a value. -/
def Pending.takesMore (p : Pending) : Bool := p.values.isEmpty || p.option = .data

/-- Keeps the values of an option, which needs one at least. -/
def Given.storeAll (g : Given) (pending : Option Pending) : Except UsageError Given :=
  match pending with
  | none => .ok g
  | some ⟨o, []⟩ => .error (.missingValue o.name)
  | some ⟨o, values⟩ => values.foldlM (fun g value => g.store o value) g

/-- How far a command line is read. -/
structure Progress where
  task : Option TaskName := none
  /-- What is asked about, after the word for help. -/
  topic : Option Topic := none
  /-- What is given before the name of the task, with the last option there. -/
  outer : Given := {}
  outerLast : Option Pending := none
  /-- What is given after it. -/
  inner : Given := {}
  /-- The last option, whose values are not looked at yet. -/
  last : Option Pending := none
  /-- Whether the rest is words only, even if it looks like options. -/
  onlyWords : Bool := false

/-- Why reading stops before the end. -/
inductive Stop where
  | usage (error : UsageError)
  | version
  | help (topic : Topic)

namespace Progress

/-- Looks at the values of the last option. -/
def settled (p : Progress) : Except Stop Progress :=
  match p.task with
  | none => do return { p with outer := ← (p.outer.storeAll p.last).mapError .usage, last := none }
  | some _ =>
    do return { p with inner := ← (p.inner.storeAll p.last).mapError .usage, last := none }

/-- The topic that a word leads to from another. -/
def narrow (topic : Topic) (text : String) : Except Stop Topic :=
  match topic, TaskName.ofName? text with
  | .program, some name => .ok (.task name)
  | .program, none =>
    if text = "help" then .ok .help else .error (.usage (.unexpectedArgument text))
  | _, _ => .error (.usage (.unexpectedArgument text))

/-- Reads a word that is no value: the name of the task, or the text of a query. -/
def word (p : Progress) (text : String) : Except Stop Progress :=
  match p.task with
  | none =>
    if p.onlyWords then .error (.usage (.unexpectedArgument text))
    else if text = "help" then .ok { p with topic := some .program }
    else
      match TaskName.ofName? text with
      | some name => .ok { p with task := some name, outerLast := p.last, last := none }
      | none => .error (.usage (.unexpectedArgument text))
  | some name => do
    let p ← p.settled
    if name = .query && p.inner.query.isNone then
      return { p with inner := { p.inner with query := some text } }
    else throw (.usage (.unexpectedArgument text))

/-- What help is about here. -/
def here (p : Progress) : Topic := (p.task.map .task).getD .program

/-- Reads a switch, which takes no value. -/
def switch (p : Progress) (name : String) : Except Stop Progress :=
  if name = "help" then .error (.help p.here)
  else if name = "version" && p.task.isNone then .error .version
  else if name = "ntriples" && p.task = some .dump then
    if p.inner.asLines then .error (.usage (.repeatedOption name))
    else .ok { p with inner := { p.inner with asLines := true } }
  else .error (.usage (.unexpectedArgument ("--" ++ name)))

/-- Reads an option, with the value after its equals sign if it has one. -/
def option (p : Progress) (name : String) (value : Option String) : Except Stop Progress := do
  match Opt.names.lookup name, value with
  | some o, value =>
    if o.isAllowed p.task then
      let p ← p.settled
      let started := { p with last := some ⟨o, value.toList⟩ }
      if value.isSome then started.settled else return started
    else throw (.usage (.unexpectedArgument ("--" ++ name)))
  | none, some text => throw (.usage (.invalidValue name text))
  | none, none => (← p.settled).switch name

/-- Reads a short option. -/
def short (p : Progress) (letter : Char) : Except Stop Progress :=
  if letter = 'h' then do (← p.settled).switch "help"
  else if letter = 'V' then do (← p.settled).switch "version"
  else .error (.usage (.unexpectedArgument (String.ofList ['-', letter])))

/-- Cuts the text of an option at its first equals sign. -/
def splitAtEquals : List Char → List Char × Option (List Char)
  | [] => ([], none)
  | c :: rest =>
    if c = '=' then ([], some rest)
    else
      let (name, value) := splitAtEquals rest
      (c :: name, value)

/-- Reads a word, which is a value if an option takes it. -/
def wordOrValue (p : Progress) (text : String) : Except Stop Progress :=
  match p.last with
  | some pending =>
    if pending.takesMore then
      .ok { p with last := some { pending with values := pending.values ++ [text] } }
    else p.word text
  | none => p.word text

/-- Reads one argument. -/
def step (p : Progress) (arg : String) : Except Stop Progress :=
  match p.topic with
  | some topic => (narrow topic arg).map fun topic => { p with topic := some topic }
  | none =>
    if p.onlyWords then p.word arg
    else
      match arg.toList with
      | ['-', '-'] => (p.settled).map fun p => { p with onlyWords := true }
      | '-' :: '-' :: text =>
        let (name, value) := splitAtEquals text
        p.option (String.ofList name) (value.map String.ofList)
      | '-' :: letter :: _ => p.short letter
      | _ => p.wordOrValue arg

/-- The task that was named. -/
def task? (p : Progress) : Except Stop Task :=
  let display := p.inner.display.getD .table
  match p.task with
  | none => .error (.usage .missingTask)
  | some .query =>
    match p.inner.query with
    | some text => .ok (.query text display)
    | none => .error (.usage .missingQuery)
  | some .dump => .ok (.dump (if p.inner.asLines then .ntriples else .turtle))
  | some .stats => .ok .stats
  | some .shell => .ok (.shell display)

/-- What was asked for, once all arguments are read. -/
def finish (p : Progress) : Except Stop Invocation := do
  if let some topic := p.topic then throw (.help topic)
  let p ← p.settled
  let task ← p.task?
  let outer ← (p.outer.storeAll p.outerLast).mapError .usage
  return ⟨(p.inner.data.or outer.data).getD [], p.inner.base.or outer.base,
    p.inner.config.or outer.config, p.inner.logLevel.or outer.logLevel, task⟩

end Progress

/-- What a list of arguments asks for. -/
def parse (args : List String) : Except UsageError Request :=
  match args.foldlM Progress.step {} >>= Progress.finish with
  | .ok invocation => .ok (.run invocation)
  | .error .version => .ok .version
  | .error (.help topic) => .ok (.help topic)
  | .error (.usage e) => .error e

/-- The names of the levels of log messages. -/
def logLevels : List String := ["error", "warn", "info", "debug", "trace"]

/-- Whether a text names a level of log messages, by a word in any case or by a number from
1 to 5. -/
def isLogLevel (text : String) : Bool :=
  let digits := match text.toList with
    | '+' :: rest => rest
    | cs => cs
  logLevels.contains (Text.asciiLowerString text)
    || (Integer.natural? digits).any fun n => 1 ≤ n && n ≤ logLevels.length

end RdfStore.Cli

/-!
## Help

What the program says about itself: what it does, how it is called, and a list of words and
one of options, each with its explanation in a column of its own.
-/

namespace RdfStore.Cli.Help

/-- A word or an option with its explanation. -/
structure Entry where
  name : String
  text : String

/-- The column of the explanations starts two places after the longest name. -/
def section_ (title : String) (entries : List Entry) : String :=
  let width := entries.foldl (fun n entry => max n entry.name.length) 0
  let line := fun entry : Entry =>
    "  " ++ entry.name ++ String.ofList (List.replicate (width - entry.name.length + 2) ' ')
      ++ entry.text ++ "\n"
  title ++ ":\n" ++ String.join (entries.map line)

/-- An option without a short form. -/
def long (name text : String) : Entry := ⟨"    --" ++ name, text⟩

/-- The option for data files. -/
def dataEntry : Entry :=
  long "data <DATA>..." "Turtle or N-Triples files to load before running the command"

/-- The other options that all tasks have. -/
def sharedEntries : List Entry :=
  [long "base <BASE>" "Base IRI for relative IRIs in the data files",
   long "config <CONFIG>" "YAML configuration file [env: TRELLIS_CONFIG=]",
   long "log-level <LOG_LEVEL>" "Log level (overrides the configuration)",
   ⟨"-h, --help", "Print help"⟩]

/-- The options of the program itself. -/
def programEntries : List Entry :=
  dataEntry :: sharedEntries ++ [⟨"-V, --version", "Print version"⟩]

/-- The option for the display of answers. -/
def formatEntry (text : String) : Entry :=
  long "format <FORMAT>"
    (text ++ " [default: table] [possible values: table, text, json, csv, tsv]")

/-- What a task does. -/
def purpose : TaskName → String
  | .query => "Execute a SPARQL query"
  | .dump => "Print the loaded data"
  | .stats => "Show store statistics"
  | .shell => "Start an interactive REPL"

/-- The name of a task. -/
def taskName : TaskName → String
  | .query => "query"
  | .dump => "dump"
  | .stats => "stats"
  | .shell => "shell"

/-- What the word for help does. -/
def helpPurpose : String := "Print this message or the help of the given subcommand(s)"

/-- The options that one task alone has. -/
def ownEntries : TaskName → List Entry
  | .query => [formatEntry "Output format"]
  | .dump => [long "ntriples" "Write N-Triples instead of Turtle"]
  | .stats => []
  | .shell => [formatEntry "Output format for query results"]

/-- A purpose, the form of a call, and lists. -/
def page (purpose usage : String) (sections : List String) : String :=
  purpose ++ "\n\nUsage: " ++ usage ++ "\n" ++ String.join (sections.map fun s => "\n" ++ s)

/-- The help on a task. -/
def taskPage (task : TaskName) : String :=
  let options := section_ "Options" (dataEntry :: ownEntries task ++ sharedEntries)
  let words :=
    if task = .query then [section_ "Arguments" [⟨"<SPARQL>", "The SPARQL query string"⟩]] else []
  let form := "trellis " ++ taskName task ++ " [OPTIONS]"
  page (purpose task) (if task = .query then form ++ " <SPARQL>" else form) (words ++ [options])

/-- The help on the program. -/
def programPage : String :=
  let tasks := [TaskName.query, .dump, .stats, .shell].map fun task =>
    Entry.mk (taskName task) (purpose task)
  page "Trellis RDF database CLI" "trellis [OPTIONS] <COMMAND>"
    [section_ "Commands" (tasks ++ [⟨"help", helpPurpose⟩]),
     section_ "Options" programEntries]

/-- The help on a topic. -/
def text : Topic → String
  | .program => programPage
  | .task task => taskPage task
  | .help =>
    page helpPurpose "trellis help [COMMAND]..."
      [section_ "Arguments" [⟨"[COMMAND]...", "Print help for the subcommand(s)"⟩]]

end RdfStore.Cli.Help
