import RdfStore.Query.Basic

/-!
# Scopes

Which variables a group can bind, in the order in which they first appear, and which
variables an expression refers to outside `EXISTS`. `MINUS` and `FILTER` bind nothing.
-/

set_option autoImplicit false

namespace RdfStore.Query

/-- Adds a name at the end unless it is there. -/
def insertName (names : List String) (name : String) : List String :=
  if names.contains name then names else names ++ [name]

/-- Adds names at the end, each once. -/
def insertNames (names more : List String) : List String := more.foldl insertName names

mutual

/-- Adds the variables that a group can bind. -/
def Group.addVars (names : List String) : Group → List String
  | .mk elements => addElementVars names elements

/-- Adds the variables that elements can bind. -/
def addElementVars (names : List String) : List Element → List String
  | [] => names
  | element :: rest => addElementVars (element.addVars names) rest

/-- Adds the variables that an element can bind. -/
def Element.addVars (names : List String) : Element → List String
  | .triples patterns => insertNames names (patterns.flatMap Pattern.vars)
  | .filter _ | .minus _ => names
  | .optional group | .group group => group.addVars names
  | .union branches => addBranchVars names branches
  | .bind _ name => insertName names name
  | .data block => insertNames names block.vars

/-- Adds the variables that branches can bind. -/
def addBranchVars (names : List String) : List Group → List String
  | [] => names
  | branch :: rest => addBranchVars (branch.addVars names) rest

end

/-- The variables that a group can bind. -/
def Group.vars (g : Group) : List String := g.addVars []

mutual

/-- The variables that an expression refers to, outside `EXISTS`. -/
def Expr.vars : Expr → List String
  | .var name => [name]
  | .const _ | .exists _ _ => []
  | .binary _ left right => left.vars ++ right.vars
  | .unary _ operand => operand.vars
  | .call _ args => varsOfAll args
  | .member _ operand items => operand.vars ++ varsOfAll items

/-- The variables that expressions refer to, outside `EXISTS`. -/
def varsOfAll : List Expr → List String
  | [] => []
  | e :: es => e.vars ++ varsOfAll es

end

/-- Whether a variable stands for a blank node of a pattern. -/
def isHidden (name : String) : Bool :=
  match name.toList with
  | '_' :: ':' :: _ => true
  | _ => false

end RdfStore.Query

namespace RdfStore.Query

/-- The columns that a form lists. -/
def Form.items : Form → List SelectItem
  | .select _ (.items items) => items
  | _ => []

/-- The names of the columns of a query's table. -/
def columns (q : Query) : List String :=
  match q.form with
  | .select _ (.items items) => items.map SelectItem.name
  | _ =>
    let names := insertNames q.pattern.vars (q.data.elim [] DataBlock.vars)
    names.filter fun name => !isHidden name

end RdfStore.Query

/-!
## Blank nodes in patterns

Blank nodes of the template kind have no meaning in patterns. `misplaced` lists those of a
query, at any depth; the reader of queries never makes any.
-/

namespace RdfStore.Query

/-- The label at a position that is a blank node. -/
def Place.label? : Place → Option String
  | .blank label => some label
  | _ => none

/-- The labels in patterns. -/
def labelsOf (patterns : List Pattern) : List String :=
  patterns.flatMap fun p => p.places.filterMap Place.label?

mutual

/-- The labels in the patterns of a group. -/
def Group.labels : Group → List String
  | .mk elements => elementLabels elements

/-- The labels in the patterns of elements. -/
def elementLabels : List Element → List String
  | [] => []
  | element :: rest => element.labels ++ elementLabels rest

/-- The labels in the patterns of an element. -/
def Element.labels : Element → List String
  | .triples patterns => labelsOf patterns
  | .filter condition => condition.labels
  | .optional group | .group group | .minus group => group.labels
  | .union branches => branchLabels branches
  | .bind value _ => value.labels
  | .data _ => []

/-- The labels in the patterns of groups. -/
def branchLabels : List Group → List String
  | [] => []
  | group :: rest => group.labels ++ branchLabels rest

/-- The labels in the patterns of an expression. -/
def Expr.labels : Expr → List String
  | .var _ | .const _ => []
  | .binary _ left right => left.labels ++ right.labels
  | .unary _ operand => operand.labels
  | .call _ args => exprLabels args
  | .member _ operand items => operand.labels ++ exprLabels items
  | .exists _ group => group.labels

/-- The labels in the patterns of expressions. -/
def exprLabels : List Expr → List String
  | [] => []
  | e :: rest => e.labels ++ exprLabels rest

end

/-- The labels in the patterns of a column. -/
def SelectItem.labels : SelectItem → List String
  | .var _ => []
  | .expr value _ => value.labels

/-- The labels of blank nodes in the patterns of a query. -/
def misplaced (q : Query) : List String :=
  let columns :=
    match q.form with
    | .select _ (.items items) => items.flatMap SelectItem.labels
    | _ => []
  q.pattern.labels ++ columns ++ q.modifiers.orderBy.flatMap fun condition => condition.key.labels

end RdfStore.Query
