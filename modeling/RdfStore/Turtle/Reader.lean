import RdfStore.Syntax.IriScope
import RdfStore.Syntax.Token
import RdfStore.Text.Position
import RdfStore.Turtle.Grammar

/-!
# Reading Turtle

`Turtle.read` turns a document into its triples, in the order in which the text states
them. Blank nodes are named `b0`, `b1`, … in the order in which they turn up; a label
keeps its node through the document.
-/

set_option autoImplicit false

/-!
## Why a document is refused

A document can fail to match the grammar, or it matches and its reader finds a problem.
-/

namespace RdfStore.Turtle

open RdfStore.Text

/-- What the reader of a matched document objects to. -/
inductive Problem where
  | baseNotAbsolute (base : String)
  | scope (error : Syntax.ScopeError)
  | literalSubject
  | objectsWithoutPredicate
  | unexpected

/-- The wording of a problem. -/
def Problem.message : Problem → String
  | .baseNotAbsolute base => "base IRI <" ++ base ++ "> is not an absolute IRI"
  | .scope error => error.message
  | .literalSubject => "literal in subject position"
  | .objectsWithoutPredicate => "object list without predicate"
  | .unexpected => "unexpected part of a document"

/-- A refused document. -/
inductive Error where
  /-- The text does not match the grammar at this place. -/
  | unmatched (place : Position)
  /-- The reader found a problem at this place. -/
  | refused (place : Position) (problem : Problem)

/-- The wording of a refusal. -/
def Error.message (e : Error) : String :=
  let (place, reason) := match e with
    | .unmatched place => (place, "the text does not match the grammar")
    | .refused place problem => (place, problem.message)
  "Turtle error at line " ++ toString place.line ++ ", column " ++ toString place.column ++ ": "
    ++ reason

end RdfStore.Turtle

namespace RdfStore.Turtle

open RdfStore.Peg RdfStore.Syntax RdfStore.Text

/-- What the reader knows after a part of the document. -/
structure ReaderState where
  scope : IriScope
  /-- The blank nodes of the labels met so far. -/
  labels : List (String × BlankNode)
  /-- The number of the next blank node. -/
  nextBlank : Nat
  triples : Array Triple

/-- A problem and the index of the character where it was found. -/
structure Failure where
  index : Nat
  problem : Problem

/-- Reading a part of the document. -/
abbrev ReaderM := StateT ReaderState (Except Failure)

/-- Refuses the document at a place. -/
def refuse {α : Type} (index : Nat) (problem : Problem) : ReaderM α :=
  throw ⟨index, problem⟩

/-- Takes what a token denotes, or refuses the document where the token starts. -/
def take {α : Type} (r : Except TokenFailure α) : ReaderM α :=
  match r with
  | .ok a => pure a
  | .error e => refuse e.index (.scope e.error)

/-- Names a new blank node. -/
def freshBlank : ReaderM BlankNode := do
  let s ← get
  set { s with nextBlank := s.nextBlank + 1 }
  return ⟨"b" ++ toString s.nextBlank⟩

/-- The blank node of a label. -/
def labelledBlank (label : String) : ReaderM BlankNode := do
  match (← get).labels.lookup label with
  | some node => return node
  | none =>
    let node ← freshBlank
    modify fun s => { s with labels := (label, node) :: s.labels }
    return node

/-- States a triple. -/
def emit (subject : Subject) (predicate : Iri) (object : Term) : ReaderM Unit :=
  modify fun s => { s with triples := s.triples.push ⟨subject, predicate, object⟩ }

/-- The IRI of a token. -/
def readIri (node : Node) : ReaderM Iri := do
  let scope := (← get).scope
  take (scope.iri Symbol.terminal? node)

/-- The literal of a string with its language or datatype. -/
def readLiteral (node : Node) : ReaderM Literal := do
  let scope := (← get).scope
  take (scope.literal Symbol.terminal? node)

/-- A literal of one of the datatypes that numbers and truth values are written in. -/
def shorthand (node : Node) (datatype : Iri) : Term :=
  .literal (Literal.typed node.string datatype)

/-- Builds the cells of a list from its last item to its first. -/
def linkCells : List Term → Term → ReaderM Term
  | [], tail => return tail
  | item :: before, tail => do
    let cell ← freshBlank
    emit (.blank cell) Vocabulary.rdfFirst item
    emit (.blank cell) Vocabulary.rdfRest tail
    linkCells before (.blank cell)

mutual

/-- The term that a node denotes; the triples inside it are stated on the way. -/
def readTerm : Node → ReaderM Term
  | .node rule start text children =>
    match rule with
    | .terminal .iriRef | .terminal .prefixedName | .terminal .prefixedSpace =>
      Term.iri <$> readIri (.node rule start text children)
    | .terminal .blankNodeLabel => Term.blank <$> labelledBlank (String.ofList (text.drop 2))
    | .terminal .anonymous => Term.blank <$> freshBlank
    | .blankNodePropertyList => do
      let node ← freshBlank
      readProperties (.blank node) children
      return .blank node
    | .collection => do
      let items ← readTerms children
      linkCells items.reverse (.iri Vocabulary.rdfNil)
    | .literal => Term.literal <$> readLiteral (.node rule start text children)
    | .terminal .integer => return shorthand (.node rule start text children) Vocabulary.xsdInteger
    | .terminal .decimal => return shorthand (.node rule start text children) Vocabulary.xsdDecimal
    | .terminal .double => return shorthand (.node rule start text children) Vocabulary.xsdDouble
    | .boolean => return shorthand (.node rule start text children) Vocabulary.xsdBoolean
    | _ => refuse start .unexpected

/-- The terms of nodes, from the first to the last. -/
def readTerms : List Node → ReaderM (List Term)
  | [] => return []
  | node :: nodes => do
    let term ← readTerm node
    let terms ← readTerms nodes
    return term :: terms

/-- The properties of a subject: the first node holds verbs and lists of objects. -/
def readProperties (subject : Subject) : List Node → ReaderM Unit
  | .node _ _ _ items :: _ => readVerbObjects subject none items
  | [] => return ()

/-- Verbs and lists of objects; an object belongs to the verb before it. -/
def readVerbObjects (subject : Subject) (verb : Option Iri) : List Node → ReaderM Unit
  | [] => return ()
  | .node rule start text children :: rest =>
    match rule with
    | .objectList =>
      match verb with
      | none => refuse start .objectsWithoutPredicate
      | some predicate => do
        readObjects subject predicate children
        readVerbObjects subject verb rest
    | .typeKeyword => readVerbObjects subject (some Vocabulary.rdfType) rest
    | _ => do
      let predicate ← readIri (.node rule start text children)
      readVerbObjects subject (some predicate) rest

/-- States one triple for every object. -/
def readObjects (subject : Subject) (predicate : Iri) : List Node → ReaderM Unit
  | [] => return ()
  | node :: nodes => do
    let object ← readTerm node
    emit subject predicate object
    readObjects subject predicate nodes

end

/-- The subject that a node denotes. -/
def readSubject (node : Node) : ReaderM Subject := do
  match (← readTerm node).toSubject? with
  | some subject => return subject
  | none => refuse node.start .literalSubject

/-- A block of triples with a common subject. -/
def readTriples (children : List Node) : ReaderM Unit :=
  match children with
  | [] => return ()
  | first :: rest => do
    let subject ← readSubject first
    readProperties subject rest

/-- One statement: a directive or a block of triples. -/
def readStatement (node : Node) : ReaderM Unit :=
  match node.rule, node.children with
  | .prefixDirective, [name, iri] | .sparqlPrefix, [name, iri] => do
    let iri ← readIri iri
    modify fun s => { s with scope := s.scope.define (definedPrefix name.text) iri.text }
  | .baseDirective, [iri] | .sparqlBase, [iri] => do
    let iri ← readIri iri
    modify fun s => { s with scope := { s.scope with base := some iri.text } }
  | .triples, children => readTriples children
  | _, _ => return ()

/-- The statements of a document, one after the other. -/
def readStatements : List Node → ReaderM Unit
  | [] => return ()
  | node :: nodes => do
    readStatement node
    readStatements nodes

/-- The state before the first statement. -/
def ReaderState.start (base : Option String) : ReaderState := ⟨IriScope.ofBase base, [], 0, #[]⟩

/-- A base that references can be resolved against. -/
def isBase (base : String) : Bool :=
  Validity.isAbsolute base.toList && Validity.isIriText base.toList

/-- Reads the nodes of a matched document. -/
def readDocument (base : Option String) (nodes : List Node) : Except Failure (List Triple) := do
  let (_, s) ← (readStatements (nodes.flatMap ParseTree.children)).run (ReaderState.start base)
  return s.triples.toList

/-- The triples that a document states, in its order, repetitions kept. -/
def read (text : String) (base : Option String) : Except Error (List Triple) :=
  let cs := text.toList
  match parseDocument cs with
  | .error index => .error (.unmatched (Position.ofIndex cs index))
  | .ok nodes =>
    match base.filter fun b => !isBase b with
    | some b => .error (.refused .start (.baseNotAbsolute b))
    | none =>
      match readDocument base nodes with
      | .ok triples => .ok triples
      | .error f => .error (.refused (Position.ofIndex cs f.index) f.problem)

end RdfStore.Turtle
