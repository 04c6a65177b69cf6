import RdfStore.Term.Basic
import RdfStore.Term.Validity
import RdfStore.Text.Escape

/-!
# Building terms

The checked constructors. `Iri.of` takes absolute IRIs only, `Literal.tagged` lower-cases
its tag, `Literal.typed` makes a plain literal of one with datatype `xsd:string`, and
`Literal.checkedTyped` refuses the datatype that needs a language tag.
-/

set_option autoImplicit false

/-!
## Terms as they are written

The N-Triples text of terms and triples. Reading it back is the work of
`RdfStore.Term.Reader` and of the Turtle reader.
-/

namespace RdfStore

/-- An IRI between angle brackets. -/
def Iri.written (i : Iri) : String := "<" ++ i.text ++ ">"

/-- A blank node label after `_:`. -/
def BlankNode.written (b : BlankNode) : String := "_:" ++ b.label

/-- A lexical form between double quotes. -/
def Literal.quoted (l : Literal) : String :=
  "\"" ++ String.ofList (Text.Escape.encode l.value.toList) ++ "\""

/-- A literal with its language or datatype. -/
def Literal.written (l : Literal) : String :=
  match l.kind with
  | .plain => l.quoted
  | .tagged language => l.quoted ++ "@" ++ language
  | .typed datatype => l.quoted ++ "^^" ++ datatype.written

/-- The N-Triples text of a term. -/
def Term.written : Term → String
  | .iri node => node.written
  | .blank node => node.written
  | .literal value => value.written

/-- The N-Triples text of a triple, with its dot. -/
def Triple.written (t : Triple) : String :=
  t.subject.toTerm.written ++ " " ++ t.predicate.written ++ " " ++ t.object.written ++ " ."

end RdfStore

namespace RdfStore

/-- Accepts a text without characters that are forbidden in an IRI. -/
def Iri.checkText (text : String) : Except TermError Unit :=
  if Validity.isIriText text.toList then .ok () else .error (.invalidIri text)

/-- An absolute IRI without forbidden characters. -/
def Iri.of (text : String) : Except TermError Iri := do
  Iri.checkText text
  if Validity.isAbsolute text.toList then .ok ⟨text⟩ else .error (.invalidIri text)

/-- A blank node with a well-formed label. -/
def BlankNode.of (label : String) : Except TermError BlankNode :=
  if Validity.isLabel label.toList then .ok ⟨label⟩ else .error (.invalidBlankNodeLabel label)

namespace Literal

/-- A literal without language and datatype. -/
def plain (value : String) : Literal := ⟨value, .plain⟩

/-- A literal in a language. -/
def tagged (value language : String) : Except TermError Literal :=
  if Validity.isLanguageTag language.toList then
    .ok ⟨value, .tagged (Text.asciiLowerString language)⟩
  else .error (.invalidLanguageTag language)

/-- A literal of a datatype. -/
def typed (value : String) (datatype : Iri) : Literal :=
  if datatype = Vocabulary.xsdString then plain value else ⟨value, .typed datatype⟩

/-- A literal of a datatype that can be written after `^^`. -/
def checkedTyped (value : String) (datatype : Iri) : Except TermError Literal :=
  if datatype = Vocabulary.rdfLangString then .error (.invalidDatatype datatype.text)
  else .ok (typed value datatype)

/-- The `xsd:boolean` literal of a truth value. -/
def ofBool (b : Bool) : Literal :=
  typed (if b then "true" else "false") Vocabulary.xsdBoolean

/-- The `xsd:integer` literal of a number. -/
def ofInt (n : Int) : Literal := typed (toString n) Vocabulary.xsdInteger

/-- The language tag, if there is one. -/
def language? (l : Literal) : Option String :=
  match l.kind with
  | .tagged language => some language
  | _ => none

/-- The datatype; plain and tagged literals have one too. -/
def datatype (l : Literal) : Iri :=
  match l.kind with
  | .plain => Vocabulary.xsdString
  | .tagged _ => Vocabulary.rdfLangString
  | .typed datatype => datatype

/-- Neither a language nor a datatype other than `xsd:string`. -/
def isSimple (l : Literal) : Bool := l.kind == .plain

/-- A simple literal or one in a language. -/
def isPlain (l : Literal) : Bool :=
  match l.kind with
  | .typed _ => false
  | _ => true

end Literal

/-- The term as a subject; literals are refused. -/
def Term.toSubject (t : Term) : Except TermError Subject :=
  match t.toSubject? with
  | some s => .ok s
  | none => .error (.invalidPosition t.written .subject)

/-- The term as a predicate; only IRIs are taken. -/
def Term.toPredicate (t : Term) : Except TermError Iri :=
  match t.toIri? with
  | some i => .ok i
  | none => .error (.invalidPosition t.written .predicate)

end RdfStore
