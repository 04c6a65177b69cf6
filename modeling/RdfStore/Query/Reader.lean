import RdfStore.Number.Integer
import RdfStore.Query.Basic
import RdfStore.Query.Error
import RdfStore.Query.Grammar
import RdfStore.Query.Scope
import RdfStore.Syntax.Token

/-!
# Reading queries

`Query.read` turns a text into a query. It splits the text by the grammar and then walks
the nodes in their order. A blank node of a pattern becomes a hidden variable and stays a
blank node in a template; those without a label are numbered in the order in which the
walk meets them. A list is written with its items first, then one cell for each item, the
last cell first.
-/

set_option autoImplicit false

namespace RdfStore.Query

open RdfStore.Peg RdfStore.Syntax RdfStore.Text

/-- Why the walk stops; places are indices of characters. -/
inductive Failure where
  | refused (index : Nat) (problem : Problem)
  | unsupported (feature : Feature)
  | unknownVariable (name : String)

/-- Reading a part of a query, with the number of the next blank node without a label. -/
abbrev ReaderM := ExceptT Failure (StateM Nat)

/-- Refuses the query at a node. -/
def refuse {α : Type} (node : Node) (problem : Problem) : ReaderM α :=
  throw (.refused node.start problem)

/-- Refuses a feature. -/
def unsupported {α : Type} (feature : Feature) : ReaderM α := throw (.unsupported feature)

/-- Takes what a token denotes, or refuses the query where the token starts. -/
def take {α : Type} (r : Except TokenFailure α) : ReaderM α :=
  match r with
  | .ok a => pure a
  | .error e => throw (.refused e.index (.scope e.error))

/-- Runs a part of the walk and keeps its failure as a value. -/
def observe {α : Type} (part : ReaderM α) : ReaderM (Except Failure α) :=
  ExceptT.mk do return .ok (← part.run)

/-! ## Tokens -/

/-- The name of a variable without its sigil. -/
def variableName (node : Node) : String := String.ofList (node.text.drop 1)

/-- A blank node: a node of a template, and a hidden variable elsewhere. -/
def blankPlace (inTemplate : Bool) (label : String) : Place :=
  if inTemplate then .blank label else .var ("_:" ++ label)

/-- A blank node without a label; `~` cannot appear in a written one. -/
def anonymousPlace (inTemplate : Bool) : ReaderM Place := do
  let n ← get
  set (n + 1)
  return blankPlace inTemplate ("~" ++ toString n)

/-- The constant term of a node. -/
def readTerm (scope : IriScope) (node : Node) : ReaderM Term :=
  match node.rule with
  | .literal => Term.literal <$> take (scope.literal Symbol.terminal? node)
  | .boolean =>
    return .literal (Literal.ofBool (equalIgnoringCase node.text "true".toList))
  | .terminal t =>
    match t.numericDatatype? with
    | some datatype => return .literal (Literal.typed node.string datatype)
    | none => Term.iri <$> take (scope.iri Symbol.terminal? node)
  | _ => refuse node .unexpected

/-- A number of rows, which 64 bits have to hold. -/
def readCount (children : List Node) : ReaderM Nat :=
  match children with
  | [] => return 0
  | node :: _ =>
    match (Integer.natural? node.text).filter (· < 18446744073709551616) with
    | some n => return n
    | none => refuse node .numberRange

/-! ## Inline data -/

/-- One value of inline data. -/
def readDatum (scope : IriScope) (node : Node) : ReaderM (Option Term) :=
  if node.rule = .undefined then return none else some <$> readTerm scope node

/-- One row of inline data. -/
def readRow (scope : IriScope) (vars : List String) (row : Node) :
    ReaderM (List (Option Term)) := do
  let values ← row.children.mapM (readDatum scope)
  if values.length = vars.length then return values
  else refuse row (.rowWidth values.length vars.length)

/-- The names of the nodes that are variables. -/
def namesOf (nodes : List Node) : List String :=
  (nodes.filter fun node => node.rule == .var).map variableName

/-- The nodes that are not variables. -/
def nonVariables (nodes : List Node) : List Node := nodes.filter fun node => node.rule != .var

/-- A block of inline data; the form for one variable needs no parentheses. -/
def readDataBlock (scope : IriScope) (block : Node) : ReaderM DataBlock := do
  let vars := namesOf block.children
  let items := nonVariables block.children
  if block.rule = .singleColumn then
    return ⟨vars, ← items.mapM fun item => do return [← readDatum scope item]⟩
  else return ⟨vars, ← items.mapM (readRow scope vars)⟩

/-- The block of inline data after its keyword. -/
def readData (scope : IriScope) (children : List Node) : ReaderM DataBlock :=
  match children with
  | [] => return ⟨[], []⟩
  | block :: _ => readDataBlock scope block

/-! ## Predicates -/

/-- A predicate that is a path of a single IRI. -/
def readPath (scope : IriScope) : Node → ReaderM Iri
  | .node _ _ _
      [.node _ _ _ [.node _ _ _ [.node .pathPrimary _ _ (.node rule start text children :: _)]]] =>
    match rule with
    | .typeKeyword => return Vocabulary.rdfType
    | .path => readPath scope (.node rule start text children)
    | .terminal t => take (scope.iri Symbol.terminal? (.node (.terminal t) start text children))
    | _ => unsupported .propertyPaths
  | _ => unsupported .propertyPaths

/-- A predicate: a variable or an IRI. -/
def readVerb (scope : IriScope) (node : Node) : ReaderM Place :=
  match node.rule with
  | .var => return .var (variableName node)
  | .path => do return .term (.iri (← readPath scope node))
  | _ => refuse node .unexpected

/-! ## Triple patterns -/

/-- The patterns of a list, and its first cell; `cells` and `items` go from last to first. -/
def linkCells : List (Place × Place) → Place → List Pattern → Place × List Pattern
  | [], tail, done => (tail, done)
  | (cell, item) :: before, tail, done =>
    linkCells before cell (done ++
      [⟨cell, .term (.iri Vocabulary.rdfFirst), item⟩,
        ⟨cell, .term (.iri Vocabulary.rdfRest), tail⟩])

mutual

/-- The subject or object that a node denotes, with the patterns inside it. -/
def readPlace (scope : IriScope) (inTemplate : Bool) : Node → ReaderM (Place × List Pattern)
  | .node rule start text children =>
    match rule with
    | .var => return (.var (String.ofList (text.drop 1)), [])
    | .terminal .blankNodeLabel => return (blankPlace inTemplate (String.ofList (text.drop 2)), [])
    | .terminal .anonymous => do return (← anonymousPlace inTemplate, [])
    | .emptyList => return (.term (.iri Vocabulary.rdfNil), [])
    | .blankNodePropertyList => do
      let place ← anonymousPlace inTemplate
      let patterns ← readProperties scope inTemplate place children
      return (place, patterns)
    | .collection => do
      let (items, inner) ← readPlaces scope inTemplate children
      let cells ← items.mapM fun _ => anonymousPlace inTemplate
      return linkCells (cells.zip items).reverse (.term (.iri Vocabulary.rdfNil)) inner
    | _ => do return (.term (← readTerm scope (.node rule start text children)), [])

/-- The places of nodes, with the patterns inside them. -/
def readPlaces (scope : IriScope) (inTemplate : Bool) :
    List Node → ReaderM (List Place × List Pattern)
  | [] => return ([], [])
  | node :: nodes => do
    let (place, inner) ← readPlace scope inTemplate node
    let (places, more) ← readPlaces scope inTemplate nodes
    return (place :: places, inner ++ more)

/-- The properties of a subject; the first node, if there is one, holds them. -/
def readProperties (scope : IriScope) (inTemplate : Bool) (subject : Place) :
    List Node → ReaderM (List Pattern)
  | [] => return []
  | .node _ _ _ items :: _ => readVerbObjects scope inTemplate subject items

/-- Verbs, each with its list of objects. -/
def readVerbObjects (scope : IriScope) (inTemplate : Bool) (subject : Place) :
    List Node → ReaderM (List Pattern)
  | verb :: .node _ _ _ objects :: rest => do
    let predicate ← readVerb scope verb
    let patterns ← readObjects scope inTemplate subject predicate objects
    let more ← readVerbObjects scope inTemplate subject rest
    return patterns ++ more
  | _ => return []

/-- One pattern for every object, after the patterns inside the object. -/
def readObjects (scope : IriScope) (inTemplate : Bool) (subject predicate : Place) :
    List Node → ReaderM (List Pattern)
  | [] => return []
  | node :: nodes => do
    let (object, inner) ← readPlace scope inTemplate node
    let more ← readObjects scope inTemplate subject predicate nodes
    return inner ++ ⟨subject, predicate, object⟩ :: more

end

/-- The patterns of a block with a common subject. -/
def readSameSubject (scope : IriScope) (inTemplate : Bool) (node : Node) :
    ReaderM (List Pattern) :=
  match node.children with
  | [] => return []
  | first :: rest => do
    let (subject, inner) ← readPlace scope inTemplate first
    let patterns ← readProperties scope inTemplate subject rest
    return inner ++ patterns

/-- The patterns of several blocks. -/
def readBlocks (scope : IriScope) (inTemplate : Bool) (nodes : List Node) :
    ReaderM (List Pattern) := do
  return (← nodes.mapM (readSameSubject scope inTemplate)).flatten

/-! ## Expressions and groups -/

/-- What an expression is built from; a failed operand fails what it is in. -/
def builder : Precedence.Algebra (Except Failure Expr) where
  unary op operand := do return .unary op (← operand)
  binary op left right := do return .binary op (← left) (← right)

/-- The call of a built-in function. -/
def builtinCall (start : Nat) (name : String) (args : List Expr) (function : Function) :
    Except Failure Expr :=
  if !function.takes args.length then
    .error (.refused start (.argumentCount (asciiUpperString name)))
  else
    match function, args with
    | .bound, [.var _] => .ok (.call function args)
    | .bound, _ => .error (.refused start .boundArgument)
    | _, _ => .ok (.call function args)

/-- The call of a cast. -/
def castCall (start : Nat) (target : CastTarget) (args : List Expr) : Except Failure Expr :=
  match args with
  | [_] => .ok (.call (.cast target) args)
  | _ => .error (.refused start .castArgument)

/-- The place of a variable and its name. -/
def variableAt (node : Node) : Nat × String := (node.start, variableName node)

mutual

/-- An expression, or one of the primaries that can stand in its place. -/
def readExpr (scope : IriScope) : Node → ReaderM Expr
  | .node rule start text children =>
    match rule with
    | .expression => do
      let tokens ← readTokens scope children
      match Precedence.combine builder tokens with
      | some result => ExceptT.mk (pure result)
      | none => throw (.refused start .unexpected)
    | .var => return .var (String.ofList (text.drop 1))
    | .exists negated => do return .exists negated (← readFirstGroup scope children)
    | .aggregate => unsupported .aggregates
    | .builtinCall =>
      match children with
      | [] => throw (.refused start .unexpected)
      | name :: args =>
        match Function.ofName? name.string with
        | none => unsupported (.builtin (asciiUpperString name.string))
        | some function => do
          let args ← readExprs scope args
          ExceptT.mk (pure (builtinCall start name.string args function))
    | .iriOrCall =>
      match children with
      | [] => throw (.refused start .unexpected)
      | name :: rest => do
        let iri ← take (scope.iri Symbol.terminal? name)
        match rest with
        | [] => return .const (.iri iri)
        | .node _ _ _ args :: _ =>
          match Function.castOf? iri with
          | none => unsupported (.external iri)
          | some target => do
            let args ← readExprs scope args
            ExceptT.mk (pure (castCall start target args))
    | _ => do return .const (← readTerm scope (.node rule start text children))

/-- The parts of an expression; failures stay with their parts. -/
def readTokens (scope : IriScope) :
    List Node → ReaderM (List (Precedence.Token (Except Failure Expr)))
  | [] => return []
  | .node rule start text children :: nodes =>
    match rule with
    | .infixOp op => do return .between op :: (← readTokens scope nodes)
    | .prefixOp op => do return .before op :: (← readTokens scope nodes)
    | .memberOp negated => do
      let items ← observe (readListed scope children)
      let rest ← readTokens scope nodes
      return .after (fun operand => do
        let items ← items
        return .member negated (← operand) items) :: rest
    | _ => do
      let operand ← observe (readExpr scope (.node rule start text children))
      return .operand operand :: (← readTokens scope nodes)

/-- The expressions in the first node, if there is one. -/
def readListed (scope : IriScope) : List Node → ReaderM (List Expr)
  | [] => return []
  | .node _ _ _ items :: _ => readExprs scope items

/-- The expressions among nodes; the mark of an empty list is none. -/
def readExprs (scope : IriScope) : List Node → ReaderM (List Expr)
  | [] => return []
  | .node rule start text children :: nodes =>
    match rule with
    | .expression => do
      let e ← readExpr scope (.node rule start text children)
      let es ← readExprs scope nodes
      return e :: es
    | _ => readExprs scope nodes

/-- The first group among nodes. -/
def readFirstGroup (scope : IriScope) : List Node → ReaderM Group
  | [] => return .empty
  | .node rule start text children :: nodes =>
    match rule with
    | .group => readGroup scope (.node rule start text children)
    | _ => readFirstGroup scope nodes

/-- The groups among nodes. -/
def readGroups (scope : IriScope) : List Node → ReaderM (List Group)
  | [] => return []
  | node :: nodes => do
    let group ← readGroup scope node
    let groups ← readGroups scope nodes
    return group :: groups

/-- The group between a pair of braces. -/
def readGroup (scope : IriScope) : Node → ReaderM Group
  | .node _ _ _ [] => return .empty
  | .node _ _ _ (.node rule _ _ parts :: _) =>
    match rule with
    | .subquery => unsupported .subqueries
    | _ => do return .mk (← readElements scope [] parts)

/-- The elements of a group after those that are done. -/
def readElements (scope : IriScope) (done : List Element) : List Node → ReaderM (List Element)
  | [] => return done
  | .node rule start text children :: parts => do
    let element ← readElement scope done (.node rule start text children)
    readElements scope (done ++ [element]) parts

/-- An element of a group after those that are done. -/
def readElement (scope : IriScope) (done : List Element) : Node → ReaderM Element
  | .node rule start _ children =>
    match rule with
    | .triplesBlock => do return .triples (← readBlocks scope false children)
    | .unionPattern => do
      match ← readGroups scope children with
      | [inner] => return .group inner
      | branches => return .union branches
    | .optionalPattern => do return .optional (← readFirstGroup scope children)
    | .minusPattern => do return .minus (← readFirstGroup scope children)
    | .graphPattern => unsupported .namedGraphs
    | .servicePattern => unsupported .federation
    | .filter =>
      match children with
      | condition :: _ => do return .filter (← readExpr scope condition)
      | [] => throw (.refused start .unexpected)
    | .bind =>
      match children with
      | value :: target :: _ => do
        let value ← readExpr scope value
        let name := variableName target
        if (addElementVars [] done).contains name then refuse target (.targetInScope name)
        else return .bind value name
      | _ => throw (.refused start .unexpected)
    | .inlineData => do return .data (← readData scope children)
    | _ => throw (.refused start .unexpected)

end

/-! ## Queries -/

/-- A sort key with its direction. -/
def readOrderCondition (scope : IriScope) (node : Node) : ReaderM OrderCondition :=
  match node.children with
  | [key] => do return ⟨true, ← readExpr scope key⟩
  | [direction, key] => do
    return ⟨equalIgnoringCase direction.text "ASC".toList, ← readExpr scope key⟩
  | _ => refuse node .unexpected

/-- The modifiers after one more clause. -/
def readModifier (scope : IriScope) (done : Modifiers) (node : Node) : ReaderM Modifiers :=
  match node.rule with
  | .groupClause => unsupported .grouping
  | .havingClause => unsupported .having
  | .orderClause => do
    return { done with orderBy := ← node.children.mapM (readOrderCondition scope) }
  | .limitClause => do return { done with limit := some (← readCount node.children) }
  | .offsetClause => do return { done with offset := ← readCount node.children }
  | _ => return done

/-- No order and no slice. -/
def Modifiers.none : Modifiers := ⟨[], .none, 0⟩

/-- The parts that the three forms of a query share. -/
structure Body where
  template : List Pattern
  pattern : Group
  modifiers : Modifiers

/-- The triples of a template, if there are any. -/
def readTemplate (scope : IriScope) (inTemplate : Bool) (children : List Node) :
    ReaderM (List Pattern) :=
  match children with
  | [] => return []
  | triples :: _ => readBlocks scope inTemplate triples.children

/-- The parts of a query after one more. -/
def readPart (scope : IriScope) (done : Body) (node : Node) : ReaderM Body :=
  match node.rule with
  | .dataset => unsupported .datasets
  | .template => do return { done with template := ← readTemplate scope true node.children }
  | .templateAsPattern => do
    let triples ← readTemplate scope false node.children
    let pattern := if triples.isEmpty then Group.empty else .mk [.triples triples]
    return { done with template := triples, pattern := pattern }
  | .whereClause => do return { done with pattern := ← readFirstGroup scope node.children }
  | .modifiers => do
    return { done with modifiers := ← node.children.foldlM (readModifier scope) .none }
  | _ => return done

/-- The columns of a table; a computed column is in scope after it. -/
def readItems (scope : IriScope) (inScope : List String) : List Node → ReaderM (List SelectItem)
  | [] => return []
  | node :: nodes =>
    match node.children with
    | [var] => do
      let name := variableName var
      if inScope.contains name then return .var name :: (← readItems scope inScope nodes)
      else throw (.unknownVariable name)
    | [value, target] => do
      let value ← readExpr scope value
      let name := variableName target
      if inScope.contains name then refuse target (.aliasInScope name)
      else return .expr value name :: (← readItems scope (inScope ++ [name]) nodes)
    | _ => refuse node .unexpected

/-- Whether and how repeated rows are dropped. -/
def readDuplicates (nodes : List Node) : Duplicates :=
  match nodes.find? fun node => node.rule == .duplicates with
  | some node => if equalIgnoringCase node.text "DISTINCT".toList then .distinct else .reduced
  | none => .keep

/-- The table that a query asks for. -/
def readSelect (scope : IriScope) (inScope : List String) (clause : List Node) :
    ReaderM Form := do
  let items ← readItems scope inScope (clause.filter fun node => node.rule == .selectItem)
  let all := clause.any fun node => node.rule == .allColumns
  return .select (readDuplicates clause) (if all then .all else .items items)

/-- A query without its prologue. -/
def readForm (scope : IriScope) (data : Option DataBlock) (node : Node) : ReaderM Query := do
  let body ← match node.rule with
    | .selectQuery | .askQuery | .constructQuery =>
      node.children.foldlM (readPart scope) ⟨[], .empty, .none⟩
    | .describeQuery => unsupported .describe
    | .update => unsupported .update
    | _ => refuse node .unexpected
  let form ← match node.rule with
    | .selectQuery =>
      let inScope := body.pattern.vars ++ data.elim [] DataBlock.vars
      let clause := node.children.filter fun child => child.rule == .selectClause
      readSelect scope inScope (clause.flatMap ParseTree.children)
    | .askQuery => pure .ask
    | _ => pure (.construct body.template)
  return ⟨form, body.pattern, body.modifiers, data⟩

/-- The variables that sort keys may use. -/
def orderScope (q : Query) : List String :=
  q.pattern.vars ++ q.data.elim [] DataBlock.vars ++
    match q.form with
    | .select _ (.items items) => items.map SelectItem.name
    | _ => []

/-- The first variable of a sort key that nothing binds. -/
def unboundKey? (q : Query) : Option String :=
  let inScope := orderScope q
  (q.modifiers.orderBy.flatMap fun condition => condition.key.vars).find?
    fun name => !inScope.contains name

/-- The scope after the declarations of a prologue. -/
def readPrologue (scope : IriScope) : List Node → ReaderM IriScope
  | [] => return scope
  | node :: nodes =>
    match node.rule, node.children with
    | .baseDeclaration, [iri] => do
      let iri ← take (scope.iri Symbol.terminal? iri)
      readPrologue { scope with base := some iri.text } nodes
    | .prefixDeclaration, [name, iri] => do
      let iri ← take (scope.iri Symbol.terminal? iri)
      readPrologue (scope.define (definedPrefix name.text) iri.text) nodes
    | _, _ => readPrologue scope nodes

/-- The parts of a matched text: prologue, form and data at the end. -/
def readParts (nodes : List Node) : ReaderM Query := do
  let children (rule : Symbol) : List Node :=
    (nodes.filter fun node => node.rule == rule).flatMap ParseTree.children
  let scope ← readPrologue (IriScope.ofBase none) (children .prologue)
  let data ← match children .valuesClause with
    | [] => pure none
    | block => do pure (some (← readData scope block))
  match nodes.drop 1 with
  | form :: _ => do
    let q ← readForm scope data form
    match unboundKey? q with
    | some name => throw (.unknownVariable name)
    | none => return q
  | [] => throw (.refused 0 .unexpected)

/-- Places a failure in the text. -/
def Failure.locate (cs : List Char) : Failure → Error
  | .refused index problem => .refused (Position.ofIndex cs index) problem
  | .unsupported feature => .unsupported feature
  | .unknownVariable name => .unknownVariable name

/-- The query that a text writes. -/
def read (text : String) : Except Error Query :=
  let cs := text.toList
  match parseQuery cs with
  | .error index => .error (.unmatched (Position.ofIndex cs index))
  | .ok nodes =>
    let (result, _) := (readParts (nodes.flatMap ParseTree.children)).run.run 0
    result.mapError (Failure.locate cs)

end RdfStore.Query
