import RdfStore.Eval.Join

/-!
# What groups mean

The solutions of a group from a seed, as a list. `groupSolutions` starts with the seed and
goes through the elements. A run of patterns, conditions between them ignored, joins by
nested loops; an optional group replaces a row by its own solutions from that row, or else
keeps it; branches and nested groups have their solutions from the empty seed and are
merged with the rows they are compatible with; `MINUS` drops the rows that some solution
on its right agrees with; a computed value is put into its slot; inline data is merged
like a nested group. Conditions apply to the solutions of the whole group, and `EXISTS`
holds for a row from which its group has a solution.
-/

set_option autoImplicit false

namespace RdfStore.Eval

open Query

/-- The solutions that extend a solution by a stored triple that matches a pattern. -/
def matchSolutions (env : Env) (p : Pattern) (row : Solution) : List Solution :=
  match Scan.ofPattern env.names p with
  | .ok scan => scan.rows env.store row
  | .error _ => []

/-- Nested loops over patterns. -/
def joinSolutions (env : Env) (patterns : List Pattern) (rows : List Solution) :
    List Solution :=
  patterns.foldl (fun rows p => rows.flatMap (matchSolutions env p)) rows

/-- The solution with a variable bound to a value; without a value it stays as it is. -/
def assignName (names : Slots) (name : String) (value : Valuation) (row : Solution) :
    Solution :=
  match names.slot? name with
  | some slot => assign slot value row
  | none => row

/-- The solutions of inline data over variables that have slots. -/
def dataSolutions (names : Slots) (block : DataBlock) : List Solution :=
  match dataRows names block with
  | .ok rows => rows
  | .error _ => []

mutual

/-- The solutions of a group from a seed. -/
def groupSolutions (env : Env) : Group → Solution → List Solution
  | .mk elements, seed =>
    (elementSolutions env elements (env.names.boundNames seed) [] [seed]).filter fun row =>
      (conditionsOf env elements).all fun condition => condition.holds row

/-- The solutions after elements, given the variables bound before, the patterns that wait
for their join and the solutions so far. -/
def elementSolutions (env : Env) : List Element → List String → List Pattern →
    List Solution → List Solution
  | [], bound, waiting, rows => joinSolutions env (joinOrder bound waiting) rows
  | .triples patterns :: rest, bound, waiting, rows =>
    elementSolutions env rest bound (waiting ++ patterns) rows
  | .filter _ :: rest, bound, waiting, rows => elementSolutions env rest bound waiting rows
  | .optional group :: rest, bound, waiting, rows =>
    elementSolutions env rest (bound ++ waiting.flatMap Pattern.vars ++ group.vars) []
      ((joinSolutions env (joinOrder bound waiting) rows).flatMap fun row =>
        orKeep row (groupSolutions env group row))
  | .union branches :: rest, bound, waiting, rows =>
    elementSolutions env rest (bound ++ waiting.flatMap Pattern.vars ++ addBranchVars [] branches)
      [] ((joinSolutions env (joinOrder bound waiting) rows).flatMap
        (joinTable (branchSolutions env branches)))
  | .group inner :: rest, bound, waiting, rows =>
    elementSolutions env rest (bound ++ waiting.flatMap Pattern.vars ++ inner.vars) []
      ((joinSolutions env (joinOrder bound waiting) rows).flatMap
        (joinTable (groupSolutions env inner (.unbound env.names.length))))
  | .minus group :: rest, bound, waiting, rows =>
    elementSolutions env rest (bound ++ waiting.flatMap Pattern.vars) []
      ((joinSolutions env (joinOrder bound waiting) rows).flatMap
        (keepUnlessExcluded (groupSolutions env group (.unbound env.names.length))))
  | .bind value name :: rest, bound, waiting, rows =>
    elementSolutions env rest (bound ++ waiting.flatMap Pattern.vars ++ [name]) []
      ((joinSolutions env (joinOrder bound waiting) rows).map
        (assignName env.names name (valueOf env value)))
  | .data block :: rest, bound, waiting, rows =>
    elementSolutions env rest (bound ++ waiting.flatMap Pattern.vars ++ block.vars) []
      ((joinSolutions env (joinOrder bound waiting) rows).flatMap
        (joinTable (dataSolutions env.names block)))

/-- The solutions of all branches, each on its own. -/
def branchSolutions (env : Env) : List Group → List Solution
  | [] => []
  | branch :: rest =>
    groupSolutions env branch (.unbound env.names.length) ++ branchSolutions env rest

/-- The conditions among elements. -/
def conditionsOf (env : Env) : List Element → List Valuation
  | [] => []
  | .filter condition :: rest => valueOf env condition :: conditionsOf env rest
  | _ :: rest => conditionsOf env rest

/-- The value of an expression. -/
def valueOf (env : Env) : Expr → Valuation
  | .var name => .var env.names name
  | .const t => .const t
  | .binary op left right => .binary op (valueOf env left) (valueOf env right)
  | .unary op operand => .unary op (valueOf env operand)
  | .call f args => .call f (valuesOf env args)
  | .member negated operand items => .member negated (valueOf env operand) (valuesOf env items)
  | .exists negated group =>
    .exists negated fun row => some !(groupSolutions env group row).isEmpty

/-- The values of expressions. -/
def valuesOf (env : Env) : List Expr → List Valuation
  | [] => []
  | e :: rest => valueOf env e :: valuesOf env rest

end

end RdfStore.Eval
