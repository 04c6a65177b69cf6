import RdfStore.Syntax.IriScope
import RdfStore.Text.Position

/-!
# Why a query is refused

A query can fail to match the grammar, break a rule of the language that the grammar does
not express, use a variable that nothing binds, or ask for a feature that the engine
does not have.
-/

set_option autoImplicit false

namespace RdfStore.Query

open RdfStore.Text

/-- What the reader of a matched query objects to at a place. -/
inductive Problem where
  | scope (error : Syntax.ScopeError)
  | aliasInScope (name : String)
  | targetInScope (name : String)
  | rowWidth (values names : Nat)
  | argumentCount (function : String)
  | boundArgument
  | castArgument
  | numberRange
  | unexpected

/-- The wording of a problem. -/
def Problem.message : Problem → String
  | .scope error => error.message
  | .aliasInScope name => "variable ?" ++ name ++ " is already in scope"
  | .targetInScope name => "BIND target ?" ++ name ++ " is already in scope"
  | .rowWidth values names =>
    "VALUES row has " ++ toString values ++ " values for " ++ toString names ++ " variables"
  | .argumentCount function => "wrong number of arguments for " ++ function
  | .boundArgument => "BOUND expects a variable"
  | .castArgument => "cast functions take one argument"
  | .numberRange => "number out of range"
  | .unexpected => "unexpected part of a query"

/-- Parts of the query language that the engine does not have. -/
inductive Feature where
  | describe
  | update
  | datasets
  | grouping
  | having
  | subqueries
  | namedGraphs
  | federation
  | propertyPaths
  | aggregates
  | builtin (name : String)
  | external (name : Iri)

/-- The name of a feature. -/
def Feature.describedAs : Feature → String
  | .describe => "DESCRIBE queries"
  | .update => "SPARQL Update"
  | .datasets => "FROM / FROM NAMED dataset clauses"
  | .grouping => "GROUP BY"
  | .having => "HAVING"
  | .subqueries => "sub-queries"
  | .namedGraphs => "GRAPH patterns"
  | .federation => "SERVICE federation"
  | .propertyPaths => "property paths"
  | .aggregates => "aggregate functions"
  | .builtin name => "function " ++ name
  | .external name => "function <" ++ name.text ++ ">"

/-- A refused query. -/
inductive Error where
  /-- The text does not match the grammar at this place. -/
  | unmatched (place : Position)
  /-- The reader found a problem at this place. -/
  | refused (place : Position) (problem : Problem)
  | unsupported (feature : Feature)
  /-- A variable is used that nothing binds. -/
  | unknownVariable (name : String)

/-- The wording of a refusal at a place. -/
def syntaxMessage (place : Position) (reason : String) : String :=
  "Syntax error at line " ++ toString place.line ++ ", column " ++ toString place.column ++ ": "
    ++ reason

/-- The wording of a refusal. -/
def Error.message : Error → String
  | .unmatched place => syntaxMessage place "the text does not match the grammar"
  | .refused place problem => syntaxMessage place problem.message
  | .unsupported feature => "Unsupported feature: " ++ feature.describedAs
  | .unknownVariable name => "Unknown variable: ?" ++ name

end RdfStore.Query
