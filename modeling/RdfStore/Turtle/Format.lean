import RdfStore.Namespaces
import RdfStore.Term.Basic
import RdfStore.Term.Build
import RdfStore.Turtle.Reader

/-!
# Document formats

Both formats are read as Turtle; the ending of a file name tells them apart for writing. A
name that starts with its only dot has no ending.
-/

set_option autoImplicit false

/-!
## Writing Turtle and N-Triples

Both writers sort the triples and drop repetitions, so the text depends on the set of
triples only. Turtle groups them by subject and by predicate, abbreviates IRIs with the
namespaces at hand and declares exactly the prefixes that it uses, in the order of their
registration.
-/

namespace RdfStore.Turtle

open RdfStore.Text

/-- A prefix that the reader takes back: empty, or a letter followed by letters, digits,
`_` and `-`. -/
def isWritablePrefix (name : String) : Bool :=
  match name.toList with
  | [] => true
  | c :: rest => isAsciiLetter c && rest.all fun d => isAsciiAlphanumeric d || d == '_' || d == '-'

/-- The prefix and the local name by which an IRI is abbreviated. -/
def abbreviation? (ns : Namespaces) (iri : Iri) : Option (String × String) :=
  (ns.compactParts? iri.text).filter fun parts => isWritablePrefix parts.1

/-- An IRI, abbreviated where a prefix allows it. -/
def writeIri (ns : Namespaces) (iri : Iri) : String :=
  match abbreviation? ns iri with
  | some (name, localName) => name ++ ":" ++ localName
  | none => iri.written

/-- A term, with the IRIs in it abbreviated. -/
def writeTerm (ns : Namespaces) : Term → String
  | .iri node => writeIri ns node
  | .blank node => node.written
  | .literal l =>
    match l.kind with
    | .typed datatype => l.quoted ++ "^^" ++ writeIri ns datatype
    | _ => l.written

/-- A predicate; the type of a thing has a keyword of its own. -/
def writePredicate (ns : Namespaces) (predicate : Iri) : String :=
  if predicate = Vocabulary.rdfType then "a" else writeIri ns predicate

/-- The IRIs of a triple that the text may abbreviate. -/
def mentionedIris (t : Triple) : List Iri :=
  let ofTerm : Term → List Iri
    | .iri node => [node]
    | .literal ⟨_, .typed datatype⟩ => [datatype]
    | _ => []
  ofTerm t.subject.toTerm
    ++ (if t.predicate = Vocabulary.rdfType then [] else [t.predicate])
    ++ ofTerm t.object

/-- The prefixes that the text of some triples uses. -/
def usedPrefixes (ns : Namespaces) (triples : List Triple) : List String :=
  (triples.flatMap mentionedIris).filterMap fun iri => (abbreviation? ns iri).map Prod.fst

/-- The declarations of the used prefixes, in the order of registration. -/
def writeDeclarations (ns : Namespaces) (used : List String) : String :=
  String.join ((ns.entries.filter fun entry => used.contains entry.1).map fun entry =>
    "@prefix " ++ entry.1 ++ ": <" ++ entry.2 ++ "> .\n")

/-- A predicate with the objects of triples that share subject and predicate. -/
def writeObjects (ns : Namespaces) : List Triple → String
  | [] => ""
  | t :: rest =>
    writePredicate ns t.predicate ++ " "
      ++ String.intercalate ", " ((t :: rest).map fun u => writeTerm ns u.object)

/-- The statement about one subject. -/
def writeSubject (ns : Namespaces) : List Triple → String
  | [] => ""
  | t :: rest =>
    let byPredicate := (t :: rest).splitBy fun a b => a.predicate == b.predicate
    writeTerm ns t.subject.toTerm ++ " "
      ++ String.intercalate " ;\n    " (byPredicate.map (writeObjects ns)) ++ " .\n"

/-- The Turtle text of some triples. -/
def write (triples : List Triple) (ns : Namespaces) : String :=
  let sorted := sortedDistinct triples
  let used := usedPrefixes ns sorted
  let bySubject := sorted.splitBy fun a b => a.subject == b.subject
  writeDeclarations ns used ++ (if used.isEmpty then "" else "\n")
    ++ String.join (bySubject.map (writeSubject ns))

/-- The N-Triples text of some triples: one line for each. -/
def writeLines (triples : List Triple) : String :=
  String.join ((sortedDistinct triples).map fun t => t.written ++ "\n")

end RdfStore.Turtle

namespace RdfStore.Turtle

/-- The formats of documents. -/
inductive Format where
  | turtle
  | ntriples
deriving DecidableEq

/-- The parts of a path between its slashes, without empty ones and single dots. -/
def pathParts (path : List Char) : List (List Char) :=
  (path.splitOn '/').filter fun part => part != [] && part != ['.']

/-- The ending of a file name: what follows its last dot, if that is not its first character. -/
def ending? (name : List Char) : Option (List Char) :=
  match name.reverse.dropWhile (· != '.') with
  | '.' :: _ :: _ =>
    if name = ['.', '.'] then none else some (name.reverse.takeWhile (· != '.')).reverse
  | _ => none

namespace Format

/-- The format that a path stands for. -/
def ofPath (path : String) : Format :=
  match (pathParts path.toList).getLast?.bind ending? with
  | some ending => if Text.equalIgnoringCase ending ['n', 't'] then .ntriples else .turtle
  | none => .turtle

/-- The text of some triples in a format. -/
def write (format : Format) (triples : List Triple) (ns : Namespaces) : String :=
  match format with
  | .turtle => Turtle.write triples ns
  | .ntriples => writeLines triples

end Format

end RdfStore.Turtle
