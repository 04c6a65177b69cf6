/-!
# Terms and triples

IRIs, blank nodes and literals, and triples over them. Literals are canonical: a
literal of datatype `xsd:string` is a plain one, and language tags are in lower case;
the constructors in `RdfStore.Term.Build` see to that.
-/

set_option autoImplicit false

namespace RdfStore

/-- An IRI, known by its text. -/
structure Iri where
  text : String
deriving DecidableEq, Hashable

/-- A blank node, known by its label (without `_:`). -/
structure BlankNode where
  label : String
deriving DecidableEq, Hashable

/-- What a literal carries beside its lexical form. -/
inductive LiteralKind where
  | plain
  | tagged (language : String)
  | typed (datatype : Iri)
deriving DecidableEq, Hashable

/-- A literal: a lexical form with a language or a datatype. -/
structure Literal where
  value : String
  kind : LiteralKind
deriving DecidableEq, Hashable

/-- Any RDF term. -/
inductive Term where
  | iri (node : Iri)
  | blank (node : BlankNode)
  | literal (value : Literal)
deriving DecidableEq, Hashable

/-- A term that can be the subject of a triple. -/
inductive Subject where
  | iri (node : Iri)
  | blank (node : BlankNode)
deriving DecidableEq, Hashable

/-- A triple; its predicate is always an IRI. -/
structure Triple where
  subject : Subject
  predicate : Iri
  object : Term
deriving DecidableEq, Hashable

/-- A subject seen as a term. -/
def Subject.toTerm : Subject → Term
  | .iri node => .iri node
  | .blank node => .blank node

namespace Term

/-- The term as a subject, unless it is a literal. -/
def toSubject? : Term → Option Subject
  | .iri node => some (.iri node)
  | .blank node => some (.blank node)
  | .literal _ => none

/-- The term as an IRI, if it is one. -/
def toIri? : Term → Option Iri
  | .iri node => some node
  | _ => none

def isIri : Term → Bool
  | .iri _ => true
  | _ => false

def isBlank : Term → Bool
  | .blank _ => true
  | _ => false

def isLiteral : Term → Bool
  | .literal _ => true
  | _ => false

end Term

/-- The triple of three terms, when each can stand at its position. -/
def Triple.ofTerms? (subject predicate object : Term) : Option Triple :=
  match subject.toSubject?, predicate.toIri? with
  | some s, some p => some ⟨s, p, object⟩
  | _, _ => none

/-- A triple with some positions left open; an open position agrees with every term. -/
structure TripleQuery where
  subject : Option Subject
  predicate : Option Iri
  object : Option Term

/-- Whether a triple agrees with every given position. -/
def TripleQuery.agrees (q : TripleQuery) (t : Triple) : Bool :=
  q.subject.all (· == t.subject) && q.predicate.all (· == t.predicate)
    && q.object.all (· == t.object)

end RdfStore

/-!
## Well-known IRIs

The names of the RDF vocabulary and of the XML Schema datatypes that the library
itself reads or writes.
-/

namespace RdfStore.Vocabulary

def rdfType : Iri := ⟨"http://www.w3.org/1999/02/22-rdf-syntax-ns#type"⟩
def rdfFirst : Iri := ⟨"http://www.w3.org/1999/02/22-rdf-syntax-ns#first"⟩
def rdfRest : Iri := ⟨"http://www.w3.org/1999/02/22-rdf-syntax-ns#rest"⟩
def rdfNil : Iri := ⟨"http://www.w3.org/1999/02/22-rdf-syntax-ns#nil"⟩
def rdfLangString : Iri := ⟨"http://www.w3.org/1999/02/22-rdf-syntax-ns#langString"⟩

/-- The namespace of the XML Schema datatypes. -/
def xsdNamespace : String := "http://www.w3.org/2001/XMLSchema#"

def xsdString : Iri := ⟨"http://www.w3.org/2001/XMLSchema#string"⟩
def xsdBoolean : Iri := ⟨"http://www.w3.org/2001/XMLSchema#boolean"⟩
def xsdInteger : Iri := ⟨"http://www.w3.org/2001/XMLSchema#integer"⟩
def xsdDecimal : Iri := ⟨"http://www.w3.org/2001/XMLSchema#decimal"⟩
def xsdDouble : Iri := ⟨"http://www.w3.org/2001/XMLSchema#double"⟩

end RdfStore.Vocabulary

/-!
## The order of terms

IRIs come before blank nodes and these before literals; inside a kind the text decides,
by code points, and for literals then the language or the datatype. The order is the
lexicographic one of four keys that together determine the term, so two terms compare
as equal only when they are the same.
-/

namespace RdfStore

/-- The place of a kind of term among the kinds. -/
def Term.rank : Term → Nat
  | .iri _ => 0
  | .blank _ => 1
  | .literal _ => 2

/-- The text that decides inside a kind. -/
def Term.sortText : Term → String
  | .iri node => node.text
  | .blank node => node.label
  | .literal l => l.value

/-- The place of plain, tagged and typed literals among those of one lexical form. -/
def Term.literalRank : Term → Nat
  | .literal ⟨_, .tagged _⟩ => 1
  | .literal ⟨_, .typed _⟩ => 2
  | _ => 0

/-- The language or the datatype of a literal. -/
def Term.literalText : Term → String
  | .literal ⟨_, .tagged language⟩ => language
  | .literal ⟨_, .typed datatype⟩ => datatype.text
  | _ => ""

/-- The order of terms. -/
def Term.order : Term → Term → Ordering :=
  compareLex (compareOn Term.rank)
    (compareLex (compareOn Term.sortText)
      (compareLex (compareOn Term.literalRank) (compareOn Term.literalText)))

/-- The order of triples: by subject, then by predicate, then by object. -/
def Triple.order : Triple → Triple → Ordering :=
  compareLex (fun a b => Term.order a.subject.toTerm b.subject.toTerm)
    (compareLex (compareOn fun t => t.predicate.text)
      (fun a b => Term.order a.object b.object))

/-- Drops every triple that equals the one before it. -/
def dropRepeats : List Triple → List Triple
  | [] => []
  | [t] => [t]
  | t :: u :: rest => if t = u then dropRepeats (u :: rest) else t :: dropRepeats (u :: rest)

/-- The triples of a list in order, each once. -/
def sortedDistinct (triples : List Triple) : List Triple :=
  dropRepeats (triples.mergeSort fun a b => (Triple.order a b).isLE)

end RdfStore
