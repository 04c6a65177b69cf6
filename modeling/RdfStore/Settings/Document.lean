import RdfStore.Namespaces
import RdfStore.Results.Format
import RdfStore.Store.Basic
import RdfStore.Text.CharClass
import RdfStore.Yaml.Value
import RdfStore.Yaml.Writer

/-!
# Settings as documents

Settings are read from YAML and written as YAML. Every part of a document can be left out,
fields with unknown names are passed over with all that they hold, and a field that is given
twice is refused.

The clock is read as a value, so all of it has to be one, also the parts that do not count.
It may be a sequence: its kind, and its fields in their order. In a mapping the fields may be
given by their numbers.
-/

set_option autoImplicit false

/-!
## Settings

What a database is set up with: its clock, the format of results, the prefixes of
written Turtle and the level of log messages. Every setting has a default.
-/

namespace RdfStore

/-- Where the ticks of a new store come from. -/
inductive ClockSetting where
  /-- Ticks that follow the time. -/
  | monotonic
  /-- Ticks that are the same in every run. -/
  | deterministic (clock : Clock)
deriving DecidableEq

/-- The clock of a setting; one that follows the time starts at the given reading. -/
def ClockSetting.clock (setting : ClockSetting) (reading : Nat) : Clock :=
  match setting with
  | .monotonic => ⟨reading, 1⟩
  | .deterministic clock => clock

/-- The settings of a database. -/
structure Settings where
  clock : ClockSetting := .monotonic
  resultFormat : Results.Format := .text
  /-- Whether written Turtle may use the prefixes in common use. -/
  useStandardPrefixes : Bool := true
  /-- More prefixes with their IRIs, in the order of registration. -/
  prefixes : List (String × String) := []
  logLevel : String := "warn"
deriving DecidableEq

namespace Settings

/-- The namespaces of written Turtle. -/
def namespaces (s : Settings) : Namespaces :=
  (if s.useStandardPrefixes then Namespaces.standard else Namespaces.empty).addAll s.prefixes

end Settings

end RdfStore

namespace RdfStore.Settings

open Yaml (Node Value Following)

/-! ## Scalars -/

/-- A text, which any scalar is. -/
def readText (node : Node) : Following String := do
  match ← node.follow with
  | .scalar _ text _ => return text
  | _ => failure

/-- A truth value: a plain scalar, or a literal block with the tag of truth values. -/
def readBool (node : Node) : Following Bool := do
  match ← node.follow with
  | .scalar p text style =>
    if style = .plain || (style = .literal && p.tag = some (Yaml.Tag.basic "bool")) then
      Yaml.bool? text
    else failure
  | _ => failure

/-- A result format by its name in lower case: the text of a scalar, or the tag of one that
stands for nothing. -/
def readFormat (node : Node) : Following Results.Format := do
  match ← node.follow with
  | .scalar p text style =>
    match p.tag.bind Yaml.Tag.localName? with
    | some name =>
      if style = .plain && Yaml.isNull text then Results.Format.names.lookup name else failure
    | none => Results.Format.names.lookup text
  | _ => failure

/-! ## Groups of fields -/

/-- The entries of a mapping; one that is left out has none. -/
def readEntries (node : Node) : Following (List (Node × Node)) := do
  match ← node.follow with
  | .mapping _ entries => return entries
  | node => if node.isNothing then return [] else failure

/-- Reads the fields of a group one after the other into what they set. -/
def readFields {α : Type} (names : List String) (start : α)
    (field : α → String → Node → Following α) (node : Node) : Following α := do
  let step (progress : List String × α) (entry : Node × Node) : Following (List String × α) := do
    let name ← readText entry.1
    if !names.contains name then return progress
    else if progress.1.contains name then failure
    else return (name :: progress.1, ← field progress.2 name entry.2)
  return (← (← readEntries node).foldlM step ([], start)).2

/-- Prefixes with their IRIs; of a prefix that is given twice, the last IRI counts. -/
def readPrefixes (node : Node) : Following (List (String × String)) := do
  (← readEntries node).foldlM (fun done entry => do
    return Namespaces.insertEntry (← readText entry.1) (← readText entry.2) done) []

/-! ## Clocks -/

/-- A tick. -/
def tick? : Value → Option Nat
  | .integer n => if n.isNegative && n.magnitude != 0 then none else some n.magnitude
  | _ => none

/-- The fields of a deterministic clock. -/
inductive ClockField where
  | start | step
deriving DecidableEq

/-- The field of a key, a name or a number without a minus sign; some keys belong to no
field. -/
def ClockField.ofKey? : Value → Option (Option ClockField)
  | .text name => some ([("start", .start), ("step", .step)].lookup name)
  | .integer n =>
    if n.isNegative then none
    else if n.magnitude = 0 then some (some .start)
    else if n.magnitude = 1 then some (some .step)
    else some none
  | _ => none

/-- A deterministic clock with the given fields; each is given once at most. -/
def clockOfFields? (fields : List (ClockField × Value)) : Option ClockSetting := do
  let only (field : ClockField) (default : Nat) : Option Nat :=
    match fields.filter fun entry => entry.1 = field with
    | [] => some default
    | [(_, value)] => tick? value
    | _ => none
  return .deterministic ⟨← only .start 0, ← only .step 1⟩

/-- The clock of a kind with the entries beside the kind. -/
def clockOfEntries? (kind : String) (entries : List (Value × Value)) : Option ClockSetting := do
  if kind = "monotonic" then return .monotonic
  else if kind = "deterministic" then
    let fields ← entries.mapM fun (key, value) => do
      return (← ClockField.ofKey? key).map fun field => (field, value)
    clockOfFields? (fields.filterMap id)
  else none

/-- The clock of a kind with the items after the kind. -/
def clockOfItems? (kind : String) (items : List Value) : Option ClockSetting :=
  if kind = "monotonic" then if items.isEmpty then some .monotonic else none
  else if kind = "deterministic" && items.length ≤ 2 then
    clockOfFields? ([ClockField.start, .step].zip items)
  else none

/-- How deep the parts of a clock may be nested. -/
def clockDepth : Nat := 126

/-- The kind and the other entries of a mapping; the kind is given once. -/
def readKind (entries : List (Node × Node)) : Following (String × List (Value × Value)) := do
  let step (progress : Option String × List (Value × Value)) (entry : Node × Node) :
      Following (Option String × List (Value × Value)) := do
    match ← entry.1.value clockDepth with
    | .text "kind" =>
      if progress.1.isSome then failure
      else return (some (← readText entry.2), progress.2)
    | key => return (progress.1, progress.2 ++ [(key, ← entry.2.value clockDepth)])
  match ← entries.foldlM step (none, []) with
  | (some kind, others) => return (kind, others)
  | (none, _) => failure

/-- A clock; its kind has to be given, and decides which other fields count. -/
def readClock (node : Node) : Following ClockSetting := do
  let node ← node.follow
  if node.hasLocalTag then failure
  match node with
  | .mapping _ entries =>
    let (kind, others) ← readKind entries
    clockOfEntries? kind others
  | .sequence _ (kind :: items) =>
    let kind ← readText kind
    clockOfItems? kind (← items.mapM (Node.value clockDepth))
  | _ => failure

/-! ## Reading -/

/-- Settings with the fields for queries. -/
def readQueryGroup (s : Settings) : Node → Following Settings :=
  readFields ["default_format"] s fun s _ node => do
    return { s with resultFormat := ← readFormat node }

/-- Settings with the fields for written Turtle. -/
def readSerializerGroup (s : Settings) : Node → Following Settings :=
  readFields ["use_default_prefixes", "prefixes"] s fun s name node => do
    if name = "prefixes" then return { s with prefixes := ← readPrefixes node }
    else return { s with useStandardPrefixes := ← readBool node }

/-- The settings that a node describes. -/
def readSettings : Node → Following Settings :=
  readFields ["clock", "query", "serializer", "log_level"] {} fun s name node => do
    if name = "clock" then return { s with clock := ← readClock node }
    else if name = "query" then readQueryGroup s node
    else if name = "serializer" then readSerializerGroup s node
    else return { s with logLevel := ← readText node }

/-- The settings that a document describes; a blank one describes the defaults. -/
def read? (text : String) : Option Settings :=
  if text.toList.all Text.isSpace then some {}
  else (Yaml.Document.read? text).bind fun d =>
    ((readSettings d.root).run d.anchors).map Prod.fst

/-! ## Writing -/

/-- The name of a result format. -/
def formatName (format : Results.Format) : String :=
  ((Results.Format.names.find? fun entry => entry.2 = format).map Prod.fst).getD ""

/-- The lines about the clock. -/
def writeClock : ClockSetting → String
  | .monotonic => "clock:\n  kind: monotonic\n"
  | .deterministic clock =>
    "clock:\n  kind: deterministic\n  start: " ++ toString clock.next
      ++ "\n  step: " ++ toString clock.step ++ "\n"

/-- The lines about prefixes. -/
def writePrefixes (prefixes : List (String × String)) : String :=
  if prefixes.isEmpty then "  prefixes: \x7b\x7d\n"
  else "  prefixes:\n" ++ String.join (prefixes.map fun entry => Yaml.writeEntry 4 entry.1 entry.2)

/-- Settings as a document. -/
def write (s : Settings) : String :=
  writeClock s.clock
    ++ "query:\n  default_format: " ++ formatName s.resultFormat ++ "\n"
    ++ "serializer:\n  use_default_prefixes: "
    ++ (if s.useStandardPrefixes then "true" else "false") ++ "\n"
    ++ writePrefixes s.prefixes
    ++ Yaml.writeEntry 0 "log_level" s.logLevel

end RdfStore.Settings
