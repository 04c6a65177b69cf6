import RdfStore.Peg.Match
import RdfStore.Query.Basic
import RdfStore.Syntax.Terminal

/-!
# The grammar of queries

The grammar recognises all of the query language, including the parts that no query can
use here: updates, descriptions, property paths, aggregates, named graphs and federation.
The reader of a matched query names them when it refuses them.
-/

set_option autoImplicit false

namespace RdfStore.Query

open RdfStore.Peg RdfStore.Syntax RdfStore.Text

/-- The rules of the grammar. -/
inductive Symbol where
  | terminal (t : Terminal)
  | query
  | prologue
  | baseDeclaration
  | prefixDeclaration
  | selectQuery
  | selectClause
  | duplicates
  | allColumns
  | selectItem
  | constructQuery
  | template
  | templateAsPattern
  | templateTriples
  | askQuery
  | describeQuery
  | update
  | dataset
  | whereClause
  | modifiers
  | groupClause
  | groupCondition
  | havingClause
  | orderClause
  | orderCondition
  | direction
  | limitClause
  | offsetClause
  | count
  | valuesClause
  | singleColumn
  | table
  | tableRow
  | undefined
  | group
  | subquery
  | groupContent
  | triplesBlock
  | unionPattern
  | optionalPattern
  | minusPattern
  | graphPattern
  | servicePattern
  | filter
  | bind
  | inlineData
  | sameSubject
  | propertyList
  | objectList
  | collection
  | blankNodePropertyList
  | emptyList
  | path
  | pathSequence
  | pathElement
  | pathInverse
  | pathRepeat
  | pathPrimary
  | pathNegated
  | pathStep
  | typeKeyword
  | expression
  | infixOp (op : BinaryOp)
  | prefixOp (op : UnaryOp)
  | memberOp (negated : Bool)
  | expressionList
  | «exists» (negated : Bool)
  | aggregate
  | aggregateName
  | balanced
  | builtinCall
  | builtinName
  | iriOrCall
  | arguments
  | var
  | literal
  | boolean
  | endOfText
deriving DecidableEq

/-- A parsing expression over these rules. -/
abbrev Phrase := Peg.Expr Symbol

namespace Symbol

/-- The token that a rule stands for. -/
def terminal? : Symbol → Option Terminal
  | terminal t => some t
  | _ => none

/-! ## Tokens -/

/-- No character of a variable's name follows. -/
def nameEnd : Phrase := .notAhead (.char isVariableChar)

/-- Neither a character of a variable's name nor a colon follows. -/
def wordEnd : Phrase := .notAhead (.char fun c => isVariableChar c || c == ':')

/-- An opening parenthesis follows, maybe after white space. -/
def parenthesisAhead : Phrase := .ahead (.seq (.star (.char isBlank)) (.one '('))

/-- One of the given keywords. -/
def keywords (words : List String) : Phrase := .choices (words.map Peg.Expr.keyword)

def iri : Phrase := Terminal.iri terminal

def numeric : Phrase := Terminal.numeric terminal

/-! ## Lists and brackets -/

/-- Items with a separator between them. -/
def separated (separator item : Phrase) : Phrase :=
  .seq item (.star (.seq separator item))

def parenthesized (inner : Phrase) : Phrase := .seqs [.one '(', inner, .one ')']

def expressionsWithin (before : List Phrase) : Phrase :=
  .seqs ([.one '('] ++ before ++
    [.rule expression, .star (.seq (.one ',') (.rule expression)), .one ')'])

/-- Blocks of triples with dots between them and maybe after the last. -/
def dottedTriples : Phrase :=
  .seq (.rule sameSubject) (.star (.seq (.one '.') (.opt (.rule sameSubject))))

/-! ## Terms -/

def graphTerm : Phrase :=
  .choices [iri, .rule literal, numeric, .rule boolean, Terminal.blankNode terminal,
    .rule emptyList]

def variableOrTerm : Phrase := .choice (.rule var) graphTerm

def variableOrIri : Phrase := .choice (.rule var) iri

def triplesNode : Phrase := .choice (.rule collection) (.rule blankNodePropertyList)

def graphNode : Phrase := .choice variableOrTerm triplesNode

def verbObjects : Phrase :=
  .seq (.choice (.rule var) (.rule path)) (.rule objectList)

def dataValue : Phrase :=
  .choices [iri, .rule literal, numeric, .rule boolean, .rule undefined]

def dataBlock : Phrase := .choice (.rule singleColumn) (.rule table)

/-! ## Expressions -/

/-- The operators between two operands, longer ones before their beginnings. -/
def infixOps : List BinaryOp :=
  [.or, .and, .compare .ne, .compare .le, .compare .ge, .compare .eq, .compare .lt, .compare .gt,
    .calculate .add, .calculate .sub, .calculate .mul, .calculate .div]

/-- How an operator between two operands is written. -/
def infixText : BinaryOp → String
  | .or => "||"
  | .and => "&&"
  | .compare .eq => "="
  | .compare .ne => "!="
  | .compare .lt => "<"
  | .compare .le => "<="
  | .compare .gt => ">"
  | .compare .ge => ">="
  | .calculate .add => "+"
  | .calculate .sub => "-"
  | .calculate .mul => "*"
  | .calculate .div => "/"

/-- The operators before an operand. -/
def prefixOps : List UnaryOp := [.not, .minus, .plus]

/-- How an operator before an operand is written. -/
def prefixText : UnaryOp → String
  | .not => "!" | .minus => "-" | .plus => "+"

def anyInfix : Phrase := .choices (infixOps.map fun op => .rule (infixOp op))

def anyPrefix : Phrase := .choices (prefixOps.map fun op => .rule (prefixOp op))

def anyPostfix : Phrase := .choice (.rule (memberOp true)) (.rule (memberOp false))

def primary : Phrase :=
  .choices [parenthesized (.rule expression), .rule (.exists true), .rule (.exists false),
    .rule aggregate, .rule builtinCall, .rule iriOrCall, .rule literal, numeric, .rule boolean,
    .rule var]

def constraint : Phrase :=
  .choices [parenthesized (.rule expression), .rule (.exists true), .rule (.exists false),
    .rule builtinCall, .rule iriOrCall]

/-- An operand with its operators before and after. -/
def operand : List Phrase := [.star anyPrefix, primary, .star anyPostfix]

/-! ## Groups -/

def patternNotTriples : Phrase :=
  .choices [.rule unionPattern, .rule optionalPattern, .rule minusPattern, .rule graphPattern,
    .rule servicePattern, .rule filter, .rule bind, .rule inlineData]

def slice : Phrase :=
  .choice (.seq (.rule limitClause) (.opt (.rule offsetClause)))
    (.seq (.rule offsetClause) (.opt (.rule limitClause)))

/-! ## Rules -/

/-- The manner and the body of every rule. -/
def production : Symbol → Production Symbol
  | .terminal t => t.production terminal
  | .query =>
    ⟨.words, .seqs [.nothing, .rule prologue,
      .choices [.rule selectQuery, .rule constructQuery, .rule askQuery, .rule describeQuery,
        .rule update],
      .opt (.rule valuesClause), .rule endOfText]⟩
  | .prologue => ⟨.words, .star (.choice (.rule baseDeclaration) (.rule prefixDeclaration))⟩
  | .baseDeclaration => ⟨.words, .seq (.keyword "BASE") (.rule (.terminal .iriRef))⟩
  | .prefixDeclaration =>
    ⟨.words, .seqs [.keyword "PREFIX", .rule (.terminal .prefixedSpace), .rule (.terminal .iriRef)]⟩
  | .selectQuery =>
    ⟨.words, .seqs [.rule selectClause, .star (.rule dataset), .rule whereClause, .rule modifiers]⟩
  | .selectClause =>
    ⟨.words, .seqs [.keyword "SELECT", .opt (.rule duplicates),
      .choice (.rule allColumns) (.plus (.rule selectItem))]⟩
  | .duplicates => ⟨.words, keywords ["DISTINCT", "REDUCED"]⟩
  | .allColumns => ⟨.words, .one '*'⟩
  | .selectItem =>
    ⟨.words, .choice (.rule var)
      (.seqs [.one '(', .rule expression, .keyword "AS", .rule var, .one ')'])⟩
  | .constructQuery =>
    ⟨.words, .seqs [.keyword "CONSTRUCT",
      .choice (.seqs [.rule template, .star (.rule dataset), .rule whereClause])
        (.seqs [.star (.rule dataset), .keyword "WHERE", .one '\x7b', .rule templateAsPattern,
          .one '\x7d']),
      .rule modifiers]⟩
  | .template => ⟨.words, .seqs [.one '\x7b', .opt (.rule templateTriples), .one '\x7d']⟩
  | .templateAsPattern => ⟨.words, .opt (.rule templateTriples)⟩
  | .templateTriples => ⟨.words, dottedTriples⟩
  | .askQuery =>
    ⟨.words, .seqs [.keyword "ASK", .star (.rule dataset), .rule whereClause, .rule modifiers]⟩
  | .describeQuery => ⟨.token, .seq (.keyword "DESCRIBE") (.star .any)⟩
  | .update =>
    ⟨.token, .seqs [keywords ["INSERT", "DELETE", "LOAD", "CLEAR", "CREATE", "DROP", "COPY",
      "MOVE", "ADD", "WITH"], nameEnd, .star .any]⟩
  | .dataset => ⟨.words, .seqs [.keyword "FROM", .opt (.keyword "NAMED"), iri]⟩
  | .whereClause => ⟨.words, .seq (.opt (.keyword "WHERE")) (.rule group)⟩
  | .modifiers =>
    ⟨.words, .seqs [.opt (.rule groupClause), .opt (.rule havingClause), .opt (.rule orderClause),
      .opt slice]⟩
  | .groupClause =>
    ⟨.words, .seqs [.keyword "GROUP", .keyword "BY", .plus (.rule groupCondition)]⟩
  | .groupCondition =>
    ⟨.words, .choices [.rule builtinCall, .rule iriOrCall,
      .seqs [.one '(', .rule expression, .opt (.seq (.keyword "AS") (.rule var)), .one ')'],
      .rule var]⟩
  | .havingClause => ⟨.words, .seq (.keyword "HAVING") (.plus constraint)⟩
  | .orderClause =>
    ⟨.words, .seqs [.keyword "ORDER", .keyword "BY", .plus (.rule orderCondition)]⟩
  | .orderCondition =>
    ⟨.words, .choices [.seq (.rule direction) (parenthesized (.rule expression)), constraint,
      .rule var]⟩
  | .direction => ⟨.words, keywords ["ASC", "DESC"]⟩
  | .limitClause => ⟨.words, .seq (.keyword "LIMIT") (.rule count)⟩
  | .offsetClause => ⟨.words, .seq (.keyword "OFFSET") (.rule count)⟩
  | .count => ⟨.token, .plus (.char isAsciiDigit)⟩
  | .valuesClause => ⟨.words, .seq (.keyword "VALUES") dataBlock⟩
  | .singleColumn =>
    ⟨.words, .seqs [.rule var, .one '\x7b', .star dataValue, .one '\x7d']⟩
  | .table =>
    ⟨.words, .seqs [.one '(', .star (.rule var), .one ')', .one '\x7b',
      .star (.rule tableRow), .one '\x7d']⟩
  | .tableRow => ⟨.words, .seqs [.one '(', .star dataValue, .one ')']⟩
  | .undefined => ⟨.token, .seq (.keyword "UNDEF") nameEnd⟩
  | .group =>
    ⟨.words, .seqs [.one '\x7b', .choice (.rule subquery) (.rule groupContent), .one '\x7d']⟩
  | .subquery =>
    ⟨.words, .seqs [.rule selectClause, .rule whereClause, .rule modifiers,
      .opt (.rule valuesClause)]⟩
  | .groupContent =>
    ⟨.words, .seq (.opt (.rule triplesBlock))
      (.star (.seqs [patternNotTriples, .opt (.one '.'), .opt (.rule triplesBlock)]))⟩
  | .triplesBlock => ⟨.words, dottedTriples⟩
  | .unionPattern => ⟨.words, separated (.keyword "UNION") (.rule group)⟩
  | .optionalPattern => ⟨.words, .seq (.keyword "OPTIONAL") (.rule group)⟩
  | .minusPattern => ⟨.words, .seq (.keyword "MINUS") (.rule group)⟩
  | .graphPattern => ⟨.words, .seqs [.keyword "GRAPH", variableOrIri, .rule group]⟩
  | .servicePattern =>
    ⟨.words, .seqs [.keyword "SERVICE", .opt (.keyword "SILENT"), variableOrIri, .rule group]⟩
  | .filter => ⟨.words, .seq (.keyword "FILTER") constraint⟩
  | .bind =>
    ⟨.words, .seqs [.keyword "BIND", .one '(', .rule expression, .keyword "AS", .rule var,
      .one ')']⟩
  | .inlineData => ⟨.words, .seq (.keyword "VALUES") dataBlock⟩
  | .sameSubject =>
    ⟨.words, .choice (.seq variableOrTerm (.rule propertyList))
      (.seq triplesNode (.opt (.rule propertyList)))⟩
  | .propertyList =>
    ⟨.words, .seq verbObjects (.star (.seq (.one ';') (.opt verbObjects)))⟩
  | .objectList => ⟨.words, separated (.one ',') graphNode⟩
  | .collection => ⟨.words, parenthesized (.plus graphNode)⟩
  | .blankNodePropertyList => ⟨.words, .seqs [.one '[', .rule propertyList, .one ']']⟩
  | .emptyList => ⟨.token, .seqs [.one '(', .star (.char isBlank), .one ')']⟩
  | .path => ⟨.words, separated (.one '|') (.rule pathSequence)⟩
  | .pathSequence => ⟨.words, separated (.one '/') (.rule pathElement)⟩
  | .pathElement =>
    ⟨.words, .seqs [.opt (.rule pathInverse), .rule pathPrimary, .opt (.rule pathRepeat)]⟩
  | .pathInverse => ⟨.words, .one '^'⟩
  | .pathRepeat => ⟨.token, .choices [.one '*', .one '+', .seq (.one '?') nameEnd]⟩
  | .pathPrimary =>
    ⟨.words, .choices [iri, .rule typeKeyword, .rule pathNegated, parenthesized (.rule path)]⟩
  | .pathNegated =>
    ⟨.words, .seq (.one '!') (.choice (.rule pathStep)
      (parenthesized (.opt (separated (.one '|') (.rule pathStep)))))⟩
  | .pathStep => ⟨.words, .seq (.opt (.one '^')) (.choice iri (.rule typeKeyword))⟩
  | .typeKeyword => ⟨.token, .seq (.one 'a') wordEnd⟩
  | .expression =>
    ⟨.words, .seqs (operand ++ [.star (.seqs (anyInfix :: operand))])⟩
  | .infixOp op => ⟨.words, .lit (infixText op)⟩
  | .prefixOp op => ⟨.words, .lit (prefixText op)⟩
  | .memberOp true => ⟨.words, .seqs [.keyword "NOT", .keyword "IN", .rule expressionList]⟩
  | .memberOp false => ⟨.words, .seq (.keyword "IN") (.rule expressionList)⟩
  | .expressionList => ⟨.words, .choice (.rule emptyList) (expressionsWithin [])⟩
  | .exists true => ⟨.words, .seqs [.keyword "NOT", .keyword "EXISTS", .rule group]⟩
  | .exists false => ⟨.words, .seq (.keyword "EXISTS") (.rule group)⟩
  | .aggregate => ⟨.words, .seq (.rule aggregateName) (.rule balanced)⟩
  | .aggregateName =>
    ⟨.token, .seq (keywords ["COUNT", "SUM", "MIN", "MAX", "AVG", "SAMPLE", "GROUP_CONCAT"])
      parenthesisAhead⟩
  | .balanced =>
    ⟨.silent, .seqs [.one '(',
      .star (.choice (.rule balanced)
        (.seq (.notAhead (.char fun c => c == '(' || c == ')')) .any)),
      .one ')']⟩
  | .builtinCall =>
    ⟨.words, .seq (.rule builtinName) (.choice (.rule emptyList) (expressionsWithin []))⟩
  | .builtinName =>
    ⟨.token, .seqs [.char isAsciiLetter, .star (.char fun c => isAsciiAlphanumeric c || c == '_'),
      parenthesisAhead]⟩
  | .iriOrCall => ⟨.words, .seq iri (.opt (.rule arguments))⟩
  | .arguments =>
    ⟨.words, .choice (.rule emptyList) (expressionsWithin [.opt (.keyword "DISTINCT")])⟩
  | .var =>
    ⟨.token, .seqs [.char fun c => c == '?' || c == '$', .char isLabelStart,
      .star (.char isVariableChar)]⟩
  | .literal => ⟨.words, Terminal.literal terminal⟩
  | .boolean => ⟨.token, .seq (keywords ["true", "false"]) wordEnd⟩
  | .endOfText => ⟨.words, .notAhead .any⟩

end Symbol

/-- The grammar of queries. -/
def grammar : Grammar Symbol := ⟨Symbol.production, 150, blankLength⟩

/-- A node that a rule of the grammar left. -/
abbrev Node := ParseTree Symbol

/-- Splits a query into nodes, or names the index of the character to blame. -/
def parseQuery (cs : List Char) : Except Nat (List Node) := grammar.parse .query cs

end RdfStore.Query
