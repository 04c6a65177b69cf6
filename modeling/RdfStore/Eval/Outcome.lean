import RdfStore.Eval.Cursor
import RdfStore.Eval.Join

/-!
# What reading a plan comes to

The rows of a group from a seed, element by element, and the error in which they end where
a group inside cannot be planned. `groupRows` goes through the elements as planning does,
but on rows instead of cursors. For groups without such errors this is what
`RdfStore.Eval.Meaning` says with plain lists.
-/

set_option autoImplicit false

namespace RdfStore.Eval

open Query

/-- The rows of a group, unless it cannot be planned at all. -/
abbrev GroupRows := Except ExecutionError (Rows ExecutionError Solution)

/-- Every row replaced by its extensions with stored triples, pattern by pattern. -/
def scanRows (env : Env) : List Pattern → Rows ExecutionError Solution → GroupRows
  | [], rows => .ok rows
  | p :: rest, rows =>
    (Scan.ofPattern env.names p).bind fun scan =>
      scanRows env rest (rows.flatMap fun row => .ok (scan.rows env.store row))

/-- Every row replaced by what a table gives for it; without a table there are no rows. -/
def tableRows (table : Except ExecutionError (List Solution))
    (f : List Solution → Solution → List Solution) (rows : Rows ExecutionError Solution) :
    Rows ExecutionError Solution :=
  match table with
  | .error e => .failed e
  | .ok table => rows.flatMap fun row => .ok (f table row)

mutual

/-- The rows of a group from a seed. -/
def groupRows (env : Env) : Group → Solution → GroupRows
  | .mk elements, seed =>
    (elementRows env elements (env.names.boundNames seed) [] (.ofList [seed])).map fun rows =>
      rows.filter fun row => (conditions env elements).all fun condition => condition.holds row

/-- The rows after elements, given the variables bound before, the patterns that wait for
their join and the rows so far. -/
def elementRows (env : Env) : List Element → List String → List Pattern →
    Rows ExecutionError Solution → GroupRows
  | [], bound, waiting, rows => scanRows env (joinOrder bound waiting) rows
  | .triples patterns :: rest, bound, waiting, rows =>
    elementRows env rest bound (waiting ++ patterns) rows
  | .filter _ :: rest, bound, waiting, rows => elementRows env rest bound waiting rows
  | .optional group :: rest, bound, waiting, rows =>
    (scanRows env (joinOrder bound waiting) rows).bind fun rows =>
      elementRows env rest (bound ++ waiting.flatMap Pattern.vars ++ group.vars) []
        (rows.flatMap fun row =>
          ((groupRows env group row).bind Rows.toExcept).map (orKeep row))
  | .union branches :: rest, bound, waiting, rows =>
    (scanRows env (joinOrder bound waiting) rows).bind fun rows =>
      elementRows env rest (bound ++ waiting.flatMap Pattern.vars ++ addBranchVars [] branches) []
        (tableRows (branchRows env branches) joinTable rows)
  | .group inner :: rest, bound, waiting, rows =>
    (scanRows env (joinOrder bound waiting) rows).bind fun rows =>
      elementRows env rest (bound ++ waiting.flatMap Pattern.vars ++ inner.vars) []
        (tableRows ((groupRows env inner (.unbound env.names.length)).bind Rows.toExcept)
          joinTable rows)
  | .minus group :: rest, bound, waiting, rows =>
    (scanRows env (joinOrder bound waiting) rows).bind fun rows =>
      elementRows env rest (bound ++ waiting.flatMap Pattern.vars) []
        (tableRows ((groupRows env group (.unbound env.names.length)).bind Rows.toExcept)
          keepUnlessExcluded rows)
  | .bind value name :: rest, bound, waiting, rows =>
    (scanRows env (joinOrder bound waiting) rows).bind fun rows =>
      (env.names.slotOf name).bind fun slot =>
        elementRows env rest (bound ++ waiting.flatMap Pattern.vars ++ [name]) []
          (rows.map (assign slot (valueAt env value)))
  | .data block :: rest, bound, waiting, rows =>
    (scanRows env (joinOrder bound waiting) rows).bind fun rows =>
      (dataRows env.names block).bind fun table =>
        elementRows env rest (bound ++ waiting.flatMap Pattern.vars ++ block.vars) []
          (rows.flatMap fun row => .ok (joinTable table row))

/-- The rows of all branches, each on its own. -/
def branchRows (env : Env) : List Group → Except ExecutionError (List Solution)
  | [] => .ok []
  | branch :: rest =>
    ((groupRows env branch (.unbound env.names.length)).bind Rows.toExcept).bind fun rows =>
      (branchRows env rest).map (rows ++ ·)

/-- The conditions among elements. -/
def conditions (env : Env) : List Element → List Valuation
  | [] => []
  | .filter condition :: rest => valueAt env condition :: conditions env rest
  | _ :: rest => conditions env rest

/-- The value of an expression. -/
def valueAt (env : Env) : Expr → Valuation
  | .var name => .var env.names name
  | .const t => .const t
  | .binary op left right => .binary op (valueAt env left) (valueAt env right)
  | .unary op operand => .unary op (valueAt env operand)
  | .call f args => .call f (valuesAt env args)
  | .member negated operand items => .member negated (valueAt env operand) (valuesAt env items)
  | .exists negated group => .exists negated fun row =>
    ((groupRows env group row).bind Rows.isInhabited).toOption

/-- The values of expressions. -/
def valuesAt (env : Env) : List Expr → List Valuation
  | [] => []
  | e :: rest => valueAt env e :: valuesAt env rest

end

end RdfStore.Eval
