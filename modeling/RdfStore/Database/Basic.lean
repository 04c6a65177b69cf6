import RdfStore.Eval.Answer
import RdfStore.Query.Error
import RdfStore.Query.Reader
import RdfStore.Settings.Document
import RdfStore.Store.Blank
import RdfStore.Term.Reader
import RdfStore.Term.Validity
import RdfStore.Text.Utf8
import RdfStore.Turtle.Reader

/-!
# Databases

A store with settings, driven by calls that take bytes and fill buffers. An argument
ends at its first NUL. Output is written into a buffer with a NUL after it, all or
nothing: a buffer is unchanged unless the whole text and its NUL fit.
-/

set_option autoImplicit false

/-!
## Why a call to a database fails

The causes, their kinds and the status codes of calls. A status is a number that is
negative exactly for failed calls; counts stay below `2 ^ 63` in it.
-/

namespace RdfStore.Database

/-- The texts that calls take. -/
inductive Argument where
  | query | document | subject | predicate | object
deriving DecidableEq

/-- The name of an argument. -/
def Argument.name : Argument → String
  | .query => "query"
  | .document => "turtle data"
  | .subject => "subject"
  | .predicate => "predicate"
  | .object => "object"

/-- The causes for refusing a call. -/
inductive Error where
  | emptyArgument (argument : Argument)
  /-- The buffer cannot hold even the closing NUL. -/
  | noCapacity
  | notUtf8 (fault : Text.Utf8.Fault)
  | term (error : TermError)
  | turtle (error : Turtle.Error)
  | query (error : Query.Error)
  | execution (error : Eval.ExecutionError)
  /-- The output with its closing NUL is longer than the buffer. -/
  | bufferTooSmall (required capacity : Nat)

/-- The kinds of causes that callers tell apart. -/
inductive ErrorKind where
  | input
  | encoding
  | termFormat
  | grammar
  | unsupportedFeature
  | execution
  | capacity
deriving DecidableEq

namespace ErrorKind

/-- The status of a call that fails for a cause of this kind. -/
def status : ErrorKind → Int
  | .input => -1
  | .encoding => -2
  | .termFormat | .grammar | .unsupportedFeature => -3
  | .execution => -4
  | .capacity => -6

end ErrorKind

namespace Error

/-- The kind of a cause. -/
def kind : Error → ErrorKind
  | .emptyArgument _ | .noCapacity => .input
  | .notUtf8 _ => .encoding
  | .term _ => .termFormat
  | .turtle _ => .grammar
  | .query (.unsupported _) => .unsupportedFeature
  | .query _ => .grammar
  | .execution _ => .execution
  | .bufferTooSmall _ _ => .capacity

/-- Whether the same call can succeed with another buffer. -/
def isRetryable (e : Error) : Bool := e.kind = .capacity

/-- The wording of a cause. -/
def message : Error → String
  | .emptyArgument argument => "Invalid argument: " ++ argument.name ++ " is empty"
  | .noCapacity => "Invalid argument: output buffer has no capacity"
  | .notUtf8 fault => "Invalid UTF-8: " ++ fault.message
  | .term error => error.message
  | .turtle error => error.message
  | .query error => error.message
  | .execution error => error.message
  | .bufferTooSmall required capacity =>
    "Buffer too small: need " ++ toString required ++ " bytes, have " ++ toString capacity

end Error

/-- The status of a call that adds or counts things. -/
def countStatus (count : Nat) : Int := min count 9223372036854775807

/-- The status of a call that answers yes or no. -/
def boolStatus (b : Bool) : Int := if b then 1 else 0

/-- The status of a call, given that of its successful result. -/
def status {α : Type} (ofResult : α → Int) : Except Error α → Int
  | .ok result => ofResult result
  | .error e => e.kind.status

end RdfStore.Database

namespace RdfStore

/-- A store with its settings. -/
structure Database where
  store : Store
  settings : Settings

namespace Database

/-- The bytes of a caller. -/
abbrev Bytes := List UInt8

/-- An empty database on the clock of its settings. -/
def empty (settings : Settings) (reading : Nat) : Database :=
  ⟨Store.empty (settings.clock.clock reading), settings⟩

/-- How many triples the database holds. -/
def count (db : Database) : Nat := db.store.count

/-- Removes all triples. -/
def clear (db : Database) : Database := { db with store := db.store.clear }

/-- Reads the clock. -/
def now (db : Database) : Nat × Database :=
  let (tick, store) := db.store.now
  (tick, { db with store := store })

/-! ## Arguments -/

/-- The bytes before the first NUL. -/
def untilNul (bytes : Bytes) : Bytes := bytes.takeWhile (· != 0)

/-- The characters of some bytes. -/
def decode (bytes : Bytes) : Except Error String := (Text.Utf8.decode bytes).mapError .notUtf8

/-- The text of an argument, which is not empty. -/
def text (argument : Argument) (bytes : Bytes) : Except Error String :=
  match untilNul bytes with
  | [] => .error (.emptyArgument argument)
  | b :: rest => decode (b :: rest)

/-- The text of an argument that may be missing or empty. -/
def optionalText (bytes : Option Bytes) : Except Error (Option String) :=
  match untilNul (bytes.getD []) with
  | [] => .ok none
  | b :: rest => some <$> decode (b :: rest)

/-- A triple of three term texts, which are all decoded before one of them is read. -/
def triple (subject predicate object : Bytes) : Except Error Triple := do
  let s ← text .subject subject
  let p ← text .predicate predicate
  let o ← text .object object
  (Triple.read s p o).mapError .term

/-! ## Changes and tests -/

/-- Adds a triple and tells whether it is new. -/
def add (db : Database) (subject predicate object : Bytes) : Except Error (Bool × Database) := do
  let t ← triple subject predicate object
  let (isNew, store) := db.store.add t
  return (isNew, { db with store := store })

/-- Whether the database holds a triple. -/
def contains (db : Database) (subject predicate object : Bytes) : Except Error Bool := do
  return db.store.contains (← triple subject predicate object)

/-- Loads a Turtle document, all or nothing, and tells how many triples are new. -/
def load (db : Database) (document : Bytes) (base : Option Bytes) :
    Except Error (Nat × Database) := do
  let document ← text .document document
  let base ← optionalText base
  let (added, store) ← (db.store.load document base).mapError .turtle
  return (added, { db with store := store })

/-! ## Output -/

/-- The answer to a query. -/
def answer (db : Database) (query : String) : Except Error Eval.Answer := do
  let q ← (Query.read query).mapError .query
  (Eval.execute db.store q).mapError .execution

/-- Whether a query stops the program, so that it is not answered. -/
def stops (db : Database) (query : String) : Bool :=
  match Query.read query with
  | .ok q => Eval.stops db.store q
  | .error _ => false

/-- The text of the answer to a query, in the result format of the settings. -/
def answerText (db : Database) (query : Bytes) : Except Error String := do
  let a ← db.answer (← text .query query)
  return Results.write db.settings.resultFormat db.settings.namespaces a

/-- The triples as Turtle. -/
def turtleText (db : Database) : String := Turtle.write db.store.toList db.settings.namespaces

/-- Puts bytes and a NUL at the start of a buffer, if they fit; with the number of bytes. -/
def writeInto (output buffer : Bytes) : Except Error (Nat × Bytes) :=
  if output.length < buffer.length then
    .ok (output.length, output ++ 0 :: buffer.drop (output.length + 1))
  else .error (.bufferTooSmall (output.length + 1) buffer.length)

/-- Fills a buffer with a text, which is only made if there is a buffer at all. -/
def fill (buffer : Bytes) (output : Except Error String) : Except Error (Nat × Bytes) :=
  if buffer.isEmpty then .error .noCapacity
  else do writeInto (← output).toUTF8.toList buffer

/-- What a call that fills a buffer tells, and the buffer after it. -/
structure Filled where
  written : Except Error Nat
  buffer : Bytes

/-- The outcome of filling a buffer; after a failure it is the buffer of before. -/
def Filled.of (buffer : Bytes) (r : Except Error (Nat × Bytes)) : Filled :=
  match r with
  | .ok (count, after) => ⟨.ok count, after⟩
  | .error e => ⟨.error e, buffer⟩

/-- Writes the answer to a query into a buffer. -/
def queryInto (db : Database) (query buffer : Bytes) : Filled :=
  .of buffer (fill buffer (db.answerText query))

/-- Whether the call that writes the answer to a query stops the program. -/
def queryStops (db : Database) (query buffer : Bytes) : Bool :=
  match buffer, text .query query with
  | _ :: _, .ok query => db.stops query
  | _, _ => false

/-- Writes the triples as Turtle into a buffer. -/
def dumpInto (db : Database) (buffer : Bytes) : Filled :=
  .of buffer (fill buffer (.ok db.turtleText))

end Database

end RdfStore
