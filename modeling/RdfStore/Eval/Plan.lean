import RdfStore.Eval.Cursor
import RdfStore.Eval.Join

/-!
# Plans

The plan of a group is a cursor over its solutions. Planning goes through the elements of
the group: patterns wait until an element that is neither a pattern nor a condition comes,
are then put on top in their join order, and the element comes on top of them; the
conditions of the group come last. Optional groups are planned anew for every row;
branches, nested groups and what is on the right of `MINUS` are planned and read once,
when the first row is asked for.
-/

set_option autoImplicit false

namespace RdfStore.Eval

open Query

/-- A cursor over solutions. -/
abbrev SolutionCursor := Cursor ExecutionError Solution

/-- What has been planned of a group. -/
structure Draft where
  root : SolutionCursor
  /-- The variables that may be bound by now. -/
  bound : List String
  /-- The patterns that wait for their join. -/
  waiting : List Pattern

/-- Puts scans on top, the one for the first pattern first. -/
def planScans (env : Env) : List Pattern → SolutionCursor → Except ExecutionError SolutionCursor
  | [], root => .ok root
  | p :: rest, root =>
    (Scan.ofPattern env.names p).bind fun scan =>
      planScans env rest (root.flatMap fun row => .ok (scan.rows env.store row))

namespace Draft

/-- Puts the patterns that wait on top. -/
def joined (env : Env) (d : Draft) : Except ExecutionError Draft :=
  (planScans env (joinOrder d.bound d.waiting) d.root).map fun root =>
    ⟨root, d.bound ++ d.waiting.flatMap Pattern.vars, []⟩

/-- Puts the patterns that wait on top, and then an element that can bind variables. -/
def onTop (env : Env) (d : Draft) (binds : List String)
    (element : SolutionCursor → Except ExecutionError SolutionCursor) :
    Except ExecutionError Draft :=
  (d.joined env).bind fun d =>
    (element d.root).map fun root => { d with root, bound := d.bound ++ binds }

end Draft

/-- The rows of a plan. -/
def planRows (plan : Except ExecutionError SolutionCursor) :
    Except ExecutionError (List Solution) :=
  plan.bind Cursor.toList

/-- The rows of several plans, each read to its end before the next. -/
def planRowsOfAll : List (Except ExecutionError SolutionCursor) →
    Except ExecutionError (List Solution)
  | [] => .ok []
  | plan :: rest => (planRows plan).bind fun rows => (planRowsOfAll rest).map (rows ++ ·)

mutual

/-- The plan of a group from a seed. -/
def groupPlan (env : Env) : Group → Solution → Except ExecutionError SolutionCursor
  | .mk elements, seed =>
    let start : Draft := ⟨.ofList [seed], env.names.boundNames seed, []⟩
    ((elementsPlan env elements start).bind (Draft.joined env)).map fun d =>
      (planConditions env elements).foldl
        (fun root condition => root.filter condition.down.holds) d.root

/-- Plans elements one after the other. -/
def elementsPlan (env : Env) : List Element → Draft → Except ExecutionError Draft
  | [], d => .ok d
  | element :: rest, d => (elementPlan env element d).bind (elementsPlan env rest)

/-- Plans an element. -/
def elementPlan (env : Env) : Element → Draft → Except ExecutionError Draft
  | .triples patterns, d => .ok { d with waiting := d.waiting ++ patterns }
  | .filter _, d => .ok d
  | .optional group, d => d.onTop env group.vars fun root =>
    .ok (root.flatMap fun row => (planRows (groupPlan env group row)).map (orKeep row))
  | .union branches, d => d.onTop env (addBranchVars [] branches) fun root =>
    .ok (root.flatMapTable (fun _ => planRowsOfAll (branchPlans env branches)) joinTable)
  | .group inner, d => d.onTop env inner.vars fun root =>
    .ok (root.flatMapTable
      (fun _ => planRows (groupPlan env inner (.unbound env.names.length))) joinTable)
  | .minus group, d => d.onTop env [] fun root =>
    .ok (root.flatMapTable
      (fun _ => planRows (groupPlan env group (.unbound env.names.length))) keepUnlessExcluded)
  | .bind value name, d => d.onTop env [name] fun root =>
    (env.names.slotOf name).map fun slot => root.map (assign slot (planValue env value).down)
  | .data block, d => d.onTop env block.vars fun root =>
    (dataRows env.names block).map fun table => root.flatMap fun row => .ok (joinTable table row)

/-- The plans of branches, each on its own. -/
def branchPlans (env : Env) : List Group → List (Except ExecutionError SolutionCursor)
  | [] => []
  | branch :: rest =>
    groupPlan env branch (.unbound env.names.length) :: branchPlans env rest

/-- The conditions among elements. -/
def planConditions (env : Env) : List Element → List (ULift.{1} Valuation)
  | [] => []
  | element :: rest => planCondition env element ++ planConditions env rest

/-- The condition that an element stands for, if it is one. -/
def planCondition (env : Env) : Element → List (ULift.{1} Valuation)
  | .filter condition => [planValue env condition]
  | _ => []

/-- The value of an expression, in the universe of cursors. -/
def planValue (env : Env) : Expr → ULift.{1} Valuation
  | .var name => ⟨.var env.names name⟩
  | .const t => ⟨.const t⟩
  | .binary op left right => ⟨.binary op (planValue env left).down (planValue env right).down⟩
  | .unary op operand => ⟨.unary op (planValue env operand).down⟩
  | .call f args => ⟨.call f ((planValues env args).map ULift.down)⟩
  | .member negated operand items =>
    ⟨.member negated (planValue env operand).down ((planValues env items).map ULift.down)⟩
  | .exists negated group =>
    ⟨.exists negated fun row => ((groupPlan env group row).bind Cursor.isInhabited).toOption⟩

/-- The values of expressions. -/
def planValues (env : Env) : List Expr → List (ULift.{1} Valuation)
  | [] => []
  | e :: rest => planValue env e :: planValues env rest

end

end RdfStore.Eval
