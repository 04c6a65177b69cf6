import RdfStore.Peg.Match
import RdfStore.Syntax.Terminal

/-!
# The grammar of Turtle

Statements are directives, which set a prefix or the base, and blocks of triples with a
common subject. N-Triples is a part of this language.
-/

set_option autoImplicit false

namespace RdfStore.Turtle

open RdfStore.Peg RdfStore.Syntax RdfStore.Text

/-- The rules of the grammar. -/
inductive Symbol where
  | terminal (t : Terminal)
  | document
  | prefixDirective
  | baseDirective
  | sparqlPrefix
  | sparqlBase
  | triples
  | predicateObjectList
  | objectList
  | typeKeyword
  | blankNodePropertyList
  | collection
  | literal
  | boolean
  | endOfText
deriving DecidableEq

namespace Symbol

/-- The token that a rule stands for. -/
def terminal? : Symbol → Option Terminal
  | terminal t => some t
  | _ => none

/-- A keyword that goes on with neither a name character nor a colon. -/
def wordEnd : Expr Symbol := .notAhead (.char fun c => isNameChar c || c == ':')

def iri : Expr Symbol := Terminal.iri terminal

def blankNode : Expr Symbol := Terminal.blankNode terminal

def verb : Expr Symbol := .choice iri (.rule typeKeyword)

def verbObjects : Expr Symbol := .seq verb (.rule objectList)

def subject : Expr Symbol := .choices [iri, blankNode, .rule collection]

def anyLiteral : Expr Symbol :=
  .choices [.rule literal, Terminal.numeric terminal, .rule boolean]

def object : Expr Symbol :=
  .choices [iri, blankNode, .rule collection, .rule blankNodePropertyList, anyLiteral]

def directive : Expr Symbol :=
  .choices [.rule prefixDirective, .rule baseDirective, .rule sparqlPrefix, .rule sparqlBase]

def statement : Expr Symbol := .choice directive (.seq (.rule triples) (.one '.'))

/-- The manner and the body of every rule. -/
def production : Symbol → Production Symbol
  | .terminal t => t.production terminal
  | .document => ⟨.words, .seqs [.nothing, .star statement, .rule endOfText]⟩
  | .prefixDirective =>
    ⟨.words, .seqs [.lit "@prefix", .rule (.terminal .prefixedSpace), .rule (.terminal .iriRef),
      .one '.']⟩
  | .baseDirective => ⟨.words, .seqs [.lit "@base", .rule (.terminal .iriRef), .one '.']⟩
  | .sparqlPrefix =>
    ⟨.words, .seqs [.keyword "PREFIX", .rule (.terminal .prefixedSpace), .rule (.terminal .iriRef)]⟩
  | .sparqlBase => ⟨.words, .seq (.keyword "BASE") (.rule (.terminal .iriRef))⟩
  | .triples =>
    ⟨.words, .choice
      (.seq (.rule blankNodePropertyList) (.opt (.rule predicateObjectList)))
      (.seq subject (.rule predicateObjectList))⟩
  | .predicateObjectList =>
    ⟨.words, .seq verbObjects (.star (.seq (.one ';') (.opt verbObjects)))⟩
  | .objectList => ⟨.words, .seq object (.star (.seq (.one ',') object))⟩
  | .typeKeyword => ⟨.token, .seq (.one 'a') wordEnd⟩
  | .blankNodePropertyList =>
    ⟨.words, .seqs [.one '[', .rule predicateObjectList, .one ']']⟩
  | .collection => ⟨.words, .seqs [.one '(', .star object, .one ')']⟩
  | .literal => ⟨.words, Terminal.literal terminal⟩
  | .boolean => ⟨.token, .seq (.choice (.lit "true") (.lit "false")) wordEnd⟩
  | .endOfText => ⟨.words, .notAhead .any⟩

end Symbol

/-- The grammar of Turtle. -/
def grammar : Grammar Symbol := ⟨Symbol.production, 40, blankLength⟩

/-- A node that a rule of Turtle left. -/
abbrev Node := ParseTree Symbol

/-- Splits a document into nodes, or names the index of the character to blame. -/
def parseDocument (cs : List Char) : Except Nat (List Node) := grammar.parse .document cs

end RdfStore.Turtle
