import RdfStore.Term.Build

/-!
# Queries

A query asks for solutions of a group of patterns and shapes them into a table, a truth
value or a graph. Groups hold expressions (in filters) and expressions hold groups (in
`EXISTS`), so the two are defined together. Variables are named without their sigil. A
blank node of a pattern is a variable whose name starts with `_:`, which no query can
write.
-/

set_option autoImplicit false

namespace RdfStore.Query

/-- One position of a triple pattern. -/
inductive Place where
  | var (name : String)
  | term (t : Term)
  /-- A blank node of a template, which is a new one for every solution. -/
  | blank (label : String)
deriving DecidableEq

/-- A triple pattern. -/
structure Pattern where
  subject : Place
  predicate : Place
  object : Place
deriving DecidableEq

/-- The positions of a pattern, subject first. -/
def Pattern.places (p : Pattern) : List Place := [p.subject, p.predicate, p.object]

/-- The variable at a position. -/
def Place.var? : Place → Option String
  | .var name => some name
  | _ => none

/-- The variables of a pattern, from subject to object. -/
def Pattern.vars (p : Pattern) : List String := p.places.filterMap Place.var?

/-- The comparisons of two terms. -/
inductive Comparison where
  | eq | ne | lt | le | gt | ge
deriving DecidableEq

/-- The operations on two numbers. -/
inductive Arithmetic where
  | add | sub | mul | div
deriving DecidableEq

/-- The two-place operators. -/
inductive BinaryOp where
  | or
  | and
  | compare (c : Comparison)
  | calculate (a : Arithmetic)
deriving DecidableEq

/-- The one-place operators. -/
inductive UnaryOp where
  | not | plus | minus
deriving DecidableEq

/-- The datatypes that a value can be cast to. -/
inductive CastTarget where
  | string | integer | decimal | double | boolean
deriving DecidableEq

/-- The built-in functions. -/
inductive Function where
  | str | lang | langMatches | datatype | bound | sameTerm
  | isIri | isBlank | isLiteral | isNumeric
  | regex | contains | strStarts | strEnds | strLen | upperCase | lowerCase | concat
  | cond | coalesce | abs
  | cast (target : CastTarget)
deriving DecidableEq

/-- Inline data: variables, and rows with one entry for each; an entry may be undefined. -/
structure DataBlock where
  vars : List String
  rows : List (List (Option Term))

mutual

/-- An expression. -/
inductive Expr where
  | var (name : String)
  | const (t : Term)
  | binary (op : BinaryOp) (left right : Expr)
  | unary (op : UnaryOp) (operand : Expr)
  | call (function : Function) (args : List Expr)
  /-- `IN`, or `NOT IN` when negated. -/
  | member (negated : Bool) (operand : Expr) (items : List Expr)
  /-- `EXISTS`, or `NOT EXISTS` when negated. -/
  | «exists» (negated : Bool) (group : Group)

/-- An element of a group. -/
inductive Element where
  | triples (patterns : List Pattern)
  /-- A condition on the solutions of the whole group. -/
  | filter (condition : Expr)
  | optional (group : Group)
  | union (branches : List Group)
  | group (inner : Group)
  | minus (group : Group)
  | bind (value : Expr) (name : String)
  | data (block : DataBlock)

/-- The content of a pair of braces. -/
inductive Group where
  | mk (elements : List Element)

end

/-- The elements of a group. -/
def Group.elements : Group → List Element
  | .mk elements => elements

/-- A group without elements. -/
def Group.empty : Group := .mk []

/-- A sort key with its direction. -/
structure OrderCondition where
  ascending : Bool
  key : Expr

/-- The order and the slice of the solutions. -/
structure Modifiers where
  orderBy : List OrderCondition
  limit : Option Nat
  offset : Nat

/-- What becomes of repeated rows; a reduced table keeps each row once as well. -/
inductive Duplicates where
  | keep | distinct | reduced
deriving DecidableEq

/-- A column of a table. -/
inductive SelectItem where
  | var (name : String)
  /-- A computed column. -/
  | expr (value : Expr) (name : String)

/-- The name of a column. -/
def SelectItem.name : SelectItem → String
  | .var name => name
  | .expr _ name => name

/-- The columns of a table. -/
inductive Projection where
  /-- All variables that the pattern can bind. -/
  | all
  | items (list : List SelectItem)

/-- What a query answers. -/
inductive Form where
  | select (duplicates : Duplicates) (projection : Projection)
  | ask
  | construct (template : List Pattern)

end RdfStore.Query

namespace RdfStore

/-- A query. -/
structure Query where
  form : Query.Form
  pattern : Query.Group
  modifiers : Query.Modifiers
  /-- Data at the end of the query. -/
  data : Option Query.DataBlock

end RdfStore

/-!
## Functions

The names of the built-in functions, in any case of letters, and the numbers of arguments
that they take.
-/

namespace RdfStore.Query.Function

/-- The functions with their names in upper case. -/
def names : List (String × Function) :=
  [("STR", .str), ("LANG", .lang), ("LANGMATCHES", .langMatches), ("DATATYPE", .datatype),
   ("BOUND", .bound), ("SAMETERM", .sameTerm), ("ISIRI", .isIri), ("ISURI", .isIri),
   ("ISBLANK", .isBlank), ("ISLITERAL", .isLiteral), ("ISNUMERIC", .isNumeric),
   ("REGEX", .regex), ("CONTAINS", .contains), ("STRSTARTS", .strStarts), ("STRENDS", .strEnds),
   ("STRLEN", .strLen), ("UCASE", .upperCase), ("LCASE", .lowerCase), ("CONCAT", .concat),
   ("IF", .cond), ("COALESCE", .coalesce), ("ABS", .abs)]

/-- The function of a name. -/
def ofName? (name : String) : Option Function := names.lookup (Text.asciiUpperString name)

/-- The least number of arguments. -/
def minArgs : Function → Nat
  | .concat | .coalesce => 0
  | .regex | .langMatches | .sameTerm | .contains | .strStarts | .strEnds => 2
  | .cond => 3
  | _ => 1

/-- The greatest number of arguments, if there is one. -/
def maxArgs? : Function → Option Nat
  | .concat | .coalesce => none
  | .regex | .cond => some 3
  | .langMatches | .sameTerm | .contains | .strStarts | .strEnds => some 2
  | _ => some 1

/-- Whether a function takes so many arguments. -/
def takes (f : Function) (count : Nat) : Bool :=
  f.minArgs ≤ count && f.maxArgs?.all fun max => count ≤ max

/-- The cast that the name of a datatype calls. -/
def castOf? (name : Iri) : Option CastTarget :=
  if name = Vocabulary.xsdString then some .string
  else if name = Vocabulary.xsdInteger then some .integer
  else if name = Vocabulary.xsdDecimal then some .decimal
  else if name = Vocabulary.xsdDouble then some .double
  else if name = Vocabulary.xsdBoolean then some .boolean
  else none

end RdfStore.Query.Function

/-!
## Precedence of operators

The parts of an expression come as a flat sequence: operators before an operand, the
operand, memberships after it, and operators between operands. `combine` builds the tree
in one pass. It keeps the operators whose right side is still open, and closes those that
bind at least as tightly as the next operator, so operators of one strength group to the
left.
-/

namespace RdfStore.Query.Precedence

/-- One part of the sequence; operands and what becomes of them are in `α`. -/
inductive Token (α : Type) where
  | operand (value : α)
  | before (op : UnaryOp)
  | between (op : BinaryOp)
  /-- A membership, given by what it makes of its operand. -/
  | after (apply : α → α)

/-- How tightly an operator between two operands binds. -/
def strength : BinaryOp → Nat
  | .or => 1
  | .and => 2
  | .compare _ => 3
  | .calculate .add | .calculate .sub => 4
  | .calculate .mul | .calculate .div => 5

/-- How tightly a membership binds. -/
def membershipStrength : Nat := 3

/-- How tightly an operator before its operand binds. -/
def prefixStrength : Nat := 6

/-- What to build of operands and operators. -/
structure Algebra (α : Type) where
  unary : UnaryOp → α → α
  binary : BinaryOp → α → α → α

/-- An operator whose right side is open. -/
structure Pending (α : Type) where
  strength : Nat
  close : α → α

/-- Closes the innermost operators that bind at least as tightly as the bound. -/
def settle {α : Type} (bound : Nat) : List (Pending α) → α → List (Pending α) × α
  | [], value => ([], value)
  | top :: rest, value =>
    if bound ≤ top.strength then settle bound rest (top.close value) else (top :: rest, value)

/-- The open operators, innermost first, and the operand on their right if it is read. -/
structure Progress (α : Type) where
  pending : List (Pending α)
  current : Option α

/-- Takes one part; `none` where it does not fit. -/
def step {α : Type} (alg : Algebra α) (p : Progress α) (token : Token α) : Option (Progress α) :=
  match token, p.current with
  | .operand value, none => some ⟨p.pending, some value⟩
  | .before op, none => some ⟨⟨prefixStrength, alg.unary op⟩ :: p.pending, none⟩
  | .between op, some value =>
    let (pending, left) := settle (strength op) p.pending value
    some ⟨⟨strength op, alg.binary op left⟩ :: pending, none⟩
  | .after apply, some value =>
    let (pending, operand) := settle membershipStrength p.pending value
    some ⟨pending, some (apply operand)⟩
  | _, _ => none

/-- The tree of a sequence; `none` where its parts do not alternate as they should. -/
def combine {α : Type} (alg : Algebra α) (tokens : List (Token α)) : Option α := do
  let p ← tokens.foldlM (step alg) ⟨[], none⟩
  let value ← p.current
  return (settle 0 p.pending value).2

end RdfStore.Query.Precedence
