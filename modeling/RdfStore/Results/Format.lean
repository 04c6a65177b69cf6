import RdfStore.Eval.Answer
import RdfStore.Turtle.Format

/-!
# Result formats

Tables as lines of `name=term`, as JSON, and as comma or tab separated values. A truth
value is JSON in the JSON format and a bare word in the others; a graph is Turtle in all
of them. In the text format a table with a single row that binds nothing looks like one
without rows.
-/

set_option autoImplicit false

/-!
## JSON

The values of the JSON results format and how they are written: without white space, with
the members of an object in the order of their names. A name that is given twice keeps
its last value. Quotes, backslashes and control characters are escaped.
-/

namespace RdfStore.Results

/-- A JSON value. -/
inductive Json where
  | bool (b : Bool)
  | string (s : String)
  | array (items : List Json)
  | object (members : List (String × Json))

namespace Json

/-- Adds a member at the place of its name, instead of one with the same name. -/
def insertMember (name : String) (value : Json) : List (String × Json) → List (String × Json)
  | [] => [(name, value)]
  | (other, old) :: rest =>
    match compare name other with
    | .lt => (name, value) :: (other, old) :: rest
    | .eq => (name, value) :: rest
    | .gt => (other, old) :: insertMember name value rest

/-- The object with the given members. -/
def ofMembers (members : List (String × Json)) : Json :=
  .object (members.foldl (fun done member => insertMember member.1 member.2 done) [])

/-- A digit of a numeric escape. -/
def hexDigit (n : Nat) : Char := Char.ofNat (if n < 10 then 0x30 + n else 0x57 + n)

/-- A character inside a string. -/
def escapeChar (c : Char) : List Char :=
  if c = '"' then ['\\', '"']
  else if c = '\\' then ['\\', '\\']
  else if c = '\x08' then ['\\', 'b']
  else if c = '\x0c' then ['\\', 'f']
  else if c = '\n' then ['\\', 'n']
  else if c = '\r' then ['\\', 'r']
  else if c = '\t' then ['\\', 't']
  else if c.toNat < 0x20 then
    ['\\', 'u', '0', '0', hexDigit (c.toNat / 16), hexDigit (c.toNat % 16)]
  else [c]

/-- A string between quotes. -/
def quote (s : String) : List Char := '"' :: (s.toList.flatMap escapeChar ++ ['"'])

mutual

/-- The characters of a value. -/
def write : Json → List Char
  | .bool b => (if b then "true" else "false").toList
  | .string s => quote s
  | .array items => '[' :: (writeItems items ++ [']'])
  | .object members => '\x7b' :: (writeMembers members ++ ['\x7d'])

/-- The items of an array, with commas between them. -/
def writeItems : List Json → List Char
  | [] => []
  | [item] => write item
  | item :: rest => write item ++ ',' :: writeItems rest

/-- The members of an object, with commas between them. -/
def writeMembers : List (String × Json) → List Char
  | [] => []
  | [(name, value)] => quote name ++ ':' :: write value
  | (name, value) :: rest => quote name ++ ':' :: (write value ++ ',' :: writeMembers rest)

end

/-- The text of a value. -/
def text (j : Json) : String := String.ofList (write j)

end Json

end RdfStore.Results

namespace RdfStore.Results

open Eval

/-- The formats. -/
inductive Format where
  | text | json | csv | tsv
deriving DecidableEq

namespace Format

/-- The names of the formats. -/
def names : List (String × Format) :=
  [("text", .text), ("json", .json), ("csv", .csv), ("tsv", .tsv)]

/-- The format of a name in any case, or the wording of an error. -/
def ofName (name : String) : Except String Format :=
  let lower := Text.asciiLowerString name
  match names.lookup lower with
  | some format => .ok format
  | none => .error ("unknown result format '" ++ lower ++ "'")

end Format

/-- One row of a table. -/
abbrev Row := List (Option Term)

/-- The columns with a term, and the terms. -/
def bindings (columns : List String) (row : Row) : List (String × Term) :=
  (columns.zip row).filterMap fun entry => entry.2.map fun t => (entry.1, t)

/-- The term of a column. -/
def value? (columns : List String) (row : Row) (name : String) : Option Term :=
  (columns.idxOf? name).bind fun i => (row[i]?).join

/-! ## Text -/

/-- A row as `name=term` with commas between. -/
def textRow (columns : List String) (row : Row) : String :=
  ", ".intercalate ((bindings columns row).map fun b => b.1 ++ "=" ++ b.2.written)

/-- A table as lines. -/
def writeText (columns : List String) (rows : List Row) : String :=
  "\n".intercalate (rows.map (textRow columns))

/-! ## JSON -/

/-- What a literal has beside its text. -/
def literalMembers (l : Literal) : List (String × Json) :=
  match l.kind with
  | .plain => []
  | .tagged language => [("xml:lang", .string language)]
  | .typed datatype => [("datatype", .string datatype.text)]

/-- A term as an object. -/
def jsonTerm : Term → Json
  | .iri node => .ofMembers [("type", .string "uri"), ("value", .string node.text)]
  | .blank node => .ofMembers [("type", .string "bnode"), ("value", .string node.label)]
  | .literal l =>
    .ofMembers ([("type", .string "literal"), ("value", .string l.value)] ++ literalMembers l)

/-- A row as an object with a member for every term. -/
def jsonRow (columns : List String) (row : Row) : Json :=
  .ofMembers ((bindings columns row).map fun b => (b.1, jsonTerm b.2))

/-- A table as an object. -/
def jsonTable (columns : List String) (rows : List Row) : Json :=
  .ofMembers
    [("head", .ofMembers [("vars", .array (columns.map .string))]),
     ("results", .ofMembers [("bindings", .array (rows.map (jsonRow columns)))])]

/-- A truth value as an object. -/
def jsonBoolean (b : Bool) : Json := .ofMembers [("head", .ofMembers []), ("boolean", .bool b)]

/-! ## Separated values -/

/-- The text of a term without the signs of its kind; blank nodes keep theirs. -/
def bareText : Term → String
  | .iri node => node.text
  | .blank node => "_:" ++ node.label
  | .literal l => l.value

/-- The characters that a field between commas cannot hold without quotes. -/
def needsQuotes (c : Char) : Bool := c == '"' || c == ',' || c == '\n' || c == '\r'

/-- A field between quotes, with every quote inside it written twice. -/
def quotedField (cs : List Char) : List Char :=
  '"' :: (cs.flatMap (fun c => if c = '"' then ['"', '"'] else [c]) ++ ['"'])

/-- A field between commas. -/
def csvField (s : String) : String :=
  if s.toList.any needsQuotes then String.ofList (quotedField s.toList) else s

/-- A record of fields between commas. -/
def csvRecord (fields : List String) : String := ",".intercalate fields ++ "\r\n"

/-- A table as comma separated values. -/
def writeCsv (columns : List String) (rows : List Row) : String :=
  csvRecord columns ++ String.join (rows.map fun row =>
    csvRecord (row.map fun value => value.elim "" fun t => csvField (bareText t)))

/-- A record of fields between tabs. -/
def tsvRecord (fields : List String) : String := "\t".intercalate fields ++ "\n"

/-- A table as tab separated values. -/
def writeTsv (columns : List String) (rows : List Row) : String :=
  tsvRecord (columns.map fun name => "?" ++ name) ++ String.join (rows.map fun row =>
    tsvRecord (row.map fun value => value.elim "" Term.written))

/-! ## Answers -/

/-- A table in a format. -/
def writeTable (format : Format) (columns : List String) (rows : List Row) : String :=
  match format with
  | .text => writeText columns rows
  | .json => (jsonTable columns rows).text
  | .csv => writeCsv columns rows
  | .tsv => writeTsv columns rows

/-- A truth value in a format. -/
def writeBoolean (format : Format) (b : Bool) : String :=
  if format = .json then (jsonBoolean b).text else if b then "true" else "false"

/-- An answer in a format; the prefixes shorten the IRIs of a graph. -/
def write (format : Format) (ns : Namespaces) : Answer → String
  | .solutions columns rows => writeTable format columns rows
  | .boolean b => writeBoolean format b
  | .graph triples => Turtle.write triples ns

end RdfStore.Results
