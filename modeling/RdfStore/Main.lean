import RdfStore.Cli.Session

/-!
# The program

Reads the files that a command line names, runs its task and prints the outcome. The
shell reads one line after the other and prints each outcome at once.
-/

set_option autoImplicit false

namespace RdfStore.Cli

/-- The content of a file, if it can be read. -/
def readFile? (path : String) : IO (Option String) := do
  try
    return some (← IO.FS.readFile path)
  catch _ =>
    return none

/-- The contents of the files that can be read. -/
def readFiles (paths : List String) : IO Files :=
  paths.filterMapM fun path => do return (← readFile? path).map fun text => (normalPath path, text)

/-- Prints a complaint. -/
def complain (c : Complaint) : IO Unit := IO.eprintln ("Error: " ++ c.message)

/-- Reads and runs lines until one ends the shell or the input ends, or a query stops the program,
and gives the exit code. -/
partial def interact (input : IO.FS.Stream) (s : Session) : IO Nat := do
  IO.eprint shellPrompt
  let line ← input.getLine
  if line.isEmpty then return 0
  if s.stops line then return stoppedCode
  let files ← readFiles ((Command.ofLine? line).bind Command.file?).toList
  let reply := s.step files line
  IO.print reply.output
  reply.complaint.forM complain
  match reply.next with
  | some s => interact input s
  | none => return 0

/-- Runs an invocation and gives the exit code. -/
def perform (i : Invocation) : IO UInt32 := do
  let files ← readFiles i.files
  match i.task, Session.start i files (← IO.monoNanosNow) with
  | .shell _, .ok s =>
    IO.print shellGreeting
    let code ← interact (← IO.getStdin) s
    if code = 0 then IO.print shellFarewell
    return UInt32.ofNat code
  | _, _ =>
    let t := i.run files [] (← IO.monoNanosNow)
    IO.print t.output
    t.complaints.forM complain
    return UInt32.ofNat t.code

end RdfStore.Cli

/-- Runs the program. -/
def main (args : List String) : IO UInt32 := do
  match RdfStore.Cli.parse args with
  | .ok (.run i) => RdfStore.Cli.perform i
  | .ok .version =>
    IO.print RdfStore.Cli.versionText
    return 0
  | .ok (.help topic) =>
    IO.print (RdfStore.Cli.Help.text topic)
    return 0
  | .error e =>
    IO.eprintln ("error: " ++ e.message)
    return 2
