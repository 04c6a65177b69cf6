import RdfStore.Cli.Arguments
import RdfStore.Database.Basic
import RdfStore.Settings.Document
import RdfStore.Text.CharClass
import RdfStore.Unicode.Width

/-!
# Sessions

What a task prints, and what each line of the shell does. Files are given by their
contents, so a session is a function of them and of the lines that are typed. A complaint
goes to standard error; it ends a task, but not the shell. A query that stops the program
ends both.
-/

set_option autoImplicit false

/-!
## Grids

Tables drawn with ASCII characters. Every column is as wide as its widest cell, with a
blank on both sides; a double line follows the header and a single one every row.
-/

namespace RdfStore.Cli.Grid

/-- A character repeated. -/
def line (c : Char) (count : Nat) : String := String.ofList (List.replicate count c)

/-- A text with blanks after it up to a width. -/
def pad (width : Nat) (s : String) : String := s ++ line ' ' (width - Unicode.textColumns s)

/-- The width of each column. -/
def widths (header : List String) (rows : List (List String)) : List Nat :=
  header.zipIdx.map fun (name, i) =>
    rows.foldl (fun width row => max width (Unicode.textColumns (row[i]?.getD "")))
      (Unicode.textColumns name)

/-- A rule between two rows, with the given ends and crossings. -/
def rule (ends crossing : String) (stroke : Char) (widths : List Nat) : String :=
  ends ++ crossing.intercalate (widths.map fun width => line stroke (width + 2)) ++ ends

/-- A row of cells. -/
def row (widths : List Nat) (cells : List String) : String :=
  "| " ++ " | ".intercalate (List.zipWith pad widths cells) ++ " |"

/-- The lines of a table. -/
def lines (header : List String) (rows : List (List String)) : List String :=
  let widths := widths header rows
  let border := rule "+" "+" '-' widths
  let body := (rows.map (row widths)).intersperse (rule "|" "+" '-' widths)
  [border, row widths header, rule "+" "=" '=' widths] ++ body ++ [border]

/-- A table as text, with a line break at its end. -/
def write (header : List String) (rows : List (List String)) : String :=
  String.join ((lines header rows).map fun l => l ++ "\n")

end RdfStore.Cli.Grid

namespace RdfStore.Cli

/-- The contents of files by name; a file that cannot be read is missing. -/
abbrev Files := List (String × String)

/-- A path without the parts that lead nowhere: single dots, and slashes that are doubled. A
slash at the end stays, since only a directory has one. -/
def normalPath (path : String) : String :=
  let parts := path.toList.splitOn '/'
  let kept := parts.filter fun part => !part.isEmpty && part != ['.']
  let start := if parts.head? == some [] then ['/'] else []
  let last := parts.getLast?.getD []
  let finish := if last.isEmpty || last = ['.'] then ['/'] else []
  String.ofList (start ++ ['/'].intercalate kept ++ finish)

/-- The content of a file. -/
def Files.read? (files : Files) (path : String) : Option String := files.lookup (normalPath path)

/-- What can go wrong. -/
inductive Complaint where
  | unreadable (path : String)
  | unreadableConfig (path : String)
  | invalidConfig (path : String)
  | invalidLogLevel (level : String)
  | refusedDocument (path : String) (error : Turtle.Error)
  | refusedQuery (error : Database.Error)
  | loadWithoutFile
  | unknownCommand (name : String)

/-- The wording of a complaint. -/
def Complaint.message : Complaint → String
  | .unreadable path => "failed to read " ++ path
  | .unreadableConfig path => "failed to read config " ++ path
  | .invalidConfig path => "failed to read config " ++ path ++ ": Invalid configuration"
  | .invalidLogLevel level => "invalid log level '" ++ level ++ "'"
  | .refusedDocument path error => "failed to load " ++ path ++ ": " ++ error.message
  | .refusedQuery error => error.message
  | .loadWithoutFile => "usage: .load <file>"
  | .unknownCommand name => "unknown command '" ++ name ++ "', try .help"

/-! ## Answers -/

/-- A table as a grid with the number of its rows. -/
def showTable (columns : List String) (rows : List Results.Row) : String :=
  if columns.isEmpty then "(no results)\n"
  else
    Grid.write columns (rows.map fun row => row.map fun value => value.elim "" Term.written)
      ++ toString rows.length ++ " row(s)\n"

/-- A text with a line break at its end, unless it is empty or has one. -/
def endLine (s : String) : String :=
  if s.isEmpty || s.toList.getLast? = some '\n' then s else s ++ "\n"

/-- An answer as it is shown. -/
def showAnswer (display : Display) (ns : Namespaces) (a : Eval.Answer) : String :=
  match display with
  | .as format => endLine (Results.write format ns a)
  | .table =>
    match a with
    | .solutions columns rows => showTable columns rows
    | .boolean b => (if b then "true" else "false") ++ "\n"
    | .graph triples => Turtle.write triples ns

/-- The answer to a query as it is shown. -/
def showQuery (db : Database) (display : Display) (query : String) : Except Complaint String :=
  match db.answer query with
  | .ok a => .ok (showAnswer display db.settings.namespaces a)
  | .error e => .error (.refusedQuery e)

/-- The triples in a format. -/
def showTriples (db : Database) (format : Turtle.Format) : String :=
  format.write db.store.toList db.settings.namespaces

/-- What the store holds, in numbers. -/
def showStats (s : Store) : String :=
  Grid.write ["Metric", "Value"]
    [["Triples", toString s.count], ["Terms", toString s.termCount],
      ["Subjects", toString s.subjects.length], ["Predicates", toString s.predicates.length],
      ["Objects", toString s.objects.length]]

/-! ## Loading -/

/-- A database with what its command line says about it. -/
structure Session where
  db : Database
  base : Option String
  display : Display

/-- Loads a data file and tells how many triples are new. -/
def Session.load (s : Session) (files : Files) (path : String) : Except Complaint (Nat × Session) :=
  match Files.read? files path with
  | none => .error (.unreadable path)
  | some text =>
    match s.db.store.load text s.base with
    | .ok (added, store) => .ok (added, { s with db := { s.db with store := store } })
    | .error e => .error (.refusedDocument path e)

/-- Loads data files one after the other. -/
def Session.loadAll (s : Session) (files : Files) : List String → Except Complaint Session
  | [] => .ok s
  | path :: rest => do
    let (_, s) ← s.load files path
    s.loadAll files rest

/-- The settings of a configuration file. -/
def readSettings (files : Files) (config : Option String) : Except Complaint Settings :=
  match config with
  | none => .ok {}
  | some path =>
    match Files.read? files path with
    | none => .error (.unreadableConfig path)
    | some text =>
      match Settings.read? text with
      | some settings => .ok settings
      | none => .error (.invalidConfig path)

/-- The display of a task; a task without one shows tables. -/
def Task.display : Task → Display
  | .query _ display | .shell display => display
  | _ => .table

/-- The session of an invocation, with its data loaded; the clock reads the given tick. -/
def Session.start (i : Invocation) (files : Files) (reading : Nat) : Except Complaint Session := do
  let settings ← readSettings files i.config
  let level := i.logLevel.getD settings.logLevel
  if !isLogLevel level then throw (.invalidLogLevel level)
  Session.loadAll ⟨Database.empty settings reading, i.base, i.task.display⟩ files i.data

/-- The names of the files that an invocation reads before its task. -/
def Invocation.files (i : Invocation) : List String := i.config.toList ++ i.data

/-! ## The shell -/

/-- What a line of the shell asks for. -/
inductive Command where
  | quit
  | help
  | load (path : String)
  | count
  | clear
  | dump
  | unknown (name : String)
  | query (text : String)

/-- The command of a line, which is a query unless it starts with a dot; blank lines have
none. -/
def Command.ofLine? (line : String) : Option Command :=
  let text := Text.trimString line
  if text.isEmpty then none
  else
    let (name, rest) := Text.splitAtSpace text.toList
    let name := String.ofList name
    if name = ".quit" || name = ".exit" || name = ".q" then some .quit
    else if name = ".help" || name = ".h" then some .help
    else if name = ".load" then some (.load (String.ofList (Text.trim (rest.getD []))))
    else if name = ".count" then some .count
    else if name = ".clear" then some .clear
    else if name = ".dump" then some .dump
    else if name.toList.head? = some '.' then some (.unknown name)
    else some (.query text)

/-- The name of the file that a command reads. -/
def Command.file? : Command → Option String
  | .load path => some path
  | _ => none

/-- The list of commands. -/
def shellHelp : String :=
  "Commands:\n"
    ++ "  .load <file>  Load a Turtle or N-Triples file\n"
    ++ "  .count        Number of triples\n"
    ++ "  .clear        Remove all triples\n"
    ++ "  .dump         Print the store as Turtle\n"
    ++ "  .quit         Exit shell\n"
    ++ "  <sparql>      Execute a SPARQL query\n"

/-- What the shell prints first. -/
def shellGreeting : String :=
  "Trellis Interactive Shell\n"
    ++ "Type SPARQL queries, or .help for commands. .quit to exit.\n\n"

/-- What the shell prints last. -/
def shellFarewell : String := "Bye!\n"

/-- What the shell prints before every line, to standard error. -/
def shellPrompt : String := "trellis> "

/-- The output of a command and the session after it. -/
def Session.perform (s : Session) (files : Files) : Command → Except Complaint (String × Session)
  | .quit => .ok ("", s)
  | .help => .ok (shellHelp, s)
  | .load path =>
    if path.isEmpty then .error .loadWithoutFile
    else do
      let (added, s) ← s.load files path
      return ("Loaded " ++ toString added ++ " triple(s)\n", s)
  | .count => .ok (toString s.db.count ++ "\n", s)
  | .clear => .ok ("Cleared\n", { s with db := s.db.clear })
  | .dump => .ok (showTriples s.db .turtle, s)
  | .unknown name => .error (.unknownCommand name)
  | .query text => do return (← showQuery s.db s.display text, s)

/-- Whether a line is a query that stops the program. -/
def Session.stops (s : Session) (line : String) : Bool :=
  match Command.ofLine? line with
  | some (.query text) => s.db.stops text
  | _ => false

/-- What a line of the shell leads to. -/
structure Reply where
  output : String
  complaint : Option Complaint
  /-- The session after it, unless the line ends the shell. -/
  next : Option Session

/-- What a line does that does not stop the program. A command that fails changes nothing. -/
def Session.step (s : Session) (files : Files) (line : String) : Reply :=
  match Command.ofLine? line with
  | none => ⟨"", none, some s⟩
  | some .quit => ⟨"", none, none⟩
  | some command =>
    match s.perform files command with
    | .ok (output, s) => ⟨output, none, some s⟩
    | .error c => ⟨"", some c, some s⟩

/-! ## Runs -/

/-- What a run prints, what it complains about, and its exit code. -/
structure Transcript where
  output : String
  complaints : List Complaint
  code : Nat

/-- A transcript with more output and complaints before it. -/
def Transcript.after (output : String) (complaints : List Complaint) (t : Transcript) :
    Transcript :=
  { t with output := output ++ t.output, complaints := complaints ++ t.complaints }

/-- The exit code of a program that is stopped. -/
def stoppedCode : Nat := 101

/-- The lines of the shell one after the other. -/
def Session.runShell (s : Session) (files : Files) : List String → Transcript
  | [] => ⟨shellFarewell, [], 0⟩
  | line :: rest =>
    if s.stops line then ⟨"", [], stoppedCode⟩ else
    let reply := s.step files line
    match reply.next with
    | some s => (s.runShell files rest).after reply.output reply.complaint.toList
    | none => ⟨reply.output ++ shellFarewell, reply.complaint.toList, 0⟩

/-- Whether a task is a query that stops the program. -/
def Session.stopsTask (s : Session) : Task → Bool
  | .query text _ => s.db.stops text
  | _ => false

/-- The output of a task that is not interactive. -/
def Session.runTask (s : Session) : Task → Except Complaint String
  | .query text display => showQuery s.db display text
  | .dump format => .ok (showTriples s.db format)
  | .stats => .ok (showStats s.db.store)
  | .shell _ => .ok ""

/-- A whole run of an invocation on the lines of standard input. -/
def Invocation.run (i : Invocation) (files : Files) (input : List String) (reading : Nat) :
    Transcript :=
  match Session.start i files reading with
  | .error c => ⟨"", [c], 1⟩
  | .ok s =>
    match i.task with
    | .shell _ => (s.runShell files input).after shellGreeting []
    | task =>
      if s.stopsTask task then ⟨"", [], stoppedCode⟩ else
      match s.runTask task with
      | .ok output => ⟨output, [], 0⟩
      | .error c => ⟨"", [c], 1⟩

/-! ## The program -/

/-- The version of the program. -/
def version : String := "0.3.0"

/-- What the program prints when it is asked for its version. -/
def versionText : String := "trellis " ++ version ++ "\n"

/-- A whole run of the program. -/
def run (args : List String) (files : Files) (input : List String) (reading : Nat) : Transcript :=
  match parse args with
  | .ok .version => ⟨versionText, [], 0⟩
  | .ok (.help topic) => ⟨Help.text topic, [], 0⟩
  | .ok (.run i) => i.run files input reading
  | .error _ => ⟨"", [], 2⟩

end RdfStore.Cli
