import RdfStore.Eval.Outcome
import RdfStore.Eval.Plan
import RdfStore.Proofs.Outcome

/-!
# Plans of groups hand out their rows

The plan of a group hands out the rows of `groupRows`, in their order, and fails where
these end in an error. The plan is a tower of cursors with buffers and tables of their own;
each of them was built with the rows that remain in every state, so what is left to show is
that planning goes element by element as `groupRows` does. The induction goes over groups,
elements and expressions at once, because optional groups are planned inside rows and
`EXISTS` is planned inside expressions.
-/

set_option autoImplicit false

namespace RdfStore.Eval

open Query

/-! ## Outcomes one after the other -/

section Outcome

-- plans live in a larger universe than rows, so the monad laws do not apply to their mixture
universe u v w x

variable {ε : Type u} {α : Type v} {β : Type w} {γ : Type x}

/-- Mapping after a step maps what the step gives. -/
theorem map_bind (r : Except ε α) (f : α → Except ε β) (g : β → γ) :
    (r.bind f).map g = r.bind fun a => (f a).map g := by
  cases r <;> rfl

/-- A step after mapping sees the mapped value. -/
theorem bind_map (r : Except ε α) (f : α → β) (g : β → Except ε γ) :
    (r.map f).bind g = r.bind fun a => g (f a) := by
  cases r <;> rfl

/-- Steps can be grouped either way. -/
theorem bind_assoc (r : Except ε α) (f : α → Except ε β) (g : β → Except ε γ) :
    (r.bind f).bind g = r.bind fun a => (f a).bind g := by
  cases r <;> rfl

/-- Mapping twice maps by both functions. -/
theorem map_map (r : Except ε α) (f : α → β) (g : β → γ) :
    (r.map f).map g = r.map fun a => g (f a) := by
  cases r <;> rfl

end Outcome

/-! ## The rows of the combinators -/

namespace Rows

variable {ε α β : Type}

/-- A condition that always holds keeps everything. -/
theorem filter_true (r : Rows ε α) : (r.filter fun _ => true) = r := by
  induction r with
  | done => rfl
  | failed e => rfl
  | row a rest ih =>
    show prepend [a] (rest.filter fun _ => true) = row a rest
    rw [ih]
    rfl

/-- Two conditions one after the other keep what satisfies both. -/
theorem filter_filter (p q : α → Bool) (r : Rows ε α) :
    (r.filter p).filter q = r.filter fun a => p a && q a := by
  induction r with
  | done => rfl
  | failed e => rfl
  | row a rest ih =>
    show (prepend (if p a then [a] else []) (rest.filter p)).filter q =
      prepend (if p a && q a then [a] else []) (rest.filter fun a => p a && q a)
    rw [← ih]
    cases p a with
    | false => rfl
    | true => rfl

end Rows

namespace Cursor

variable {ε α τ β : Type}

/-- A cursor over a list has its rows. -/
theorem rows_ofList (list : List α) : (ofList list : Cursor ε α).rows = .ofList list := rfl

/-- Replacing rows in a cursor replaces them in what it hands out. -/
theorem rows_flatMap (c : Cursor ε α) (f : α → Except ε (List β)) :
    (c.flatMap f).rows = c.rows.flatMap f := rfl

/-- Replacing each row by one does so in what the cursor hands out. -/
theorem rows_map (c : Cursor ε α) (f : α → β) : (c.map f).rows = c.rows.map f := rfl

/-- A table that is loaded at the first pull acts as if it had been there before. -/
theorem rows_flatMapTable (c : Cursor ExecutionError Solution)
    (load : Unit → Except ExecutionError (List Solution))
    (f : List Solution → Solution → List Solution) :
    (c.flatMapTable load f).rows = tableRows (load ()) f c.rows := by
  unfold rows flatMapTable keptOr tableRows
  dsimp only
  cases load () <;> rfl

/-- Conditions put on top one after the other keep the rows that satisfy all of them. -/
theorem rows_filters (conditions : List (ULift.{1} Valuation)) (c : SolutionCursor) :
    (conditions.foldl (fun root condition => root.filter condition.down.holds) c).rows =
      c.rows.filter fun row =>
        (conditions.map ULift.down).all fun condition => condition.holds row := by
  induction conditions generalizing c with
  | nil => exact (Rows.filter_true c.rows).symm
  | cons condition rest ih =>
    rw [List.foldl_cons, ih]
    exact Rows.filter_filter condition.down.holds _ c.rows

end Cursor

/-- Scans put on top join by nested loops. -/
theorem planScans_rows (env : Env) (patterns : List Pattern) (root : SolutionCursor) :
    (planScans env patterns root).map Cursor.rows = scanRows env patterns root.rows := by
  induction patterns generalizing root with
  | nil => rfl
  | cons p rest ih =>
    simp only [planScans, scanRows, map_bind, ih, Cursor.rows_flatMap]

/-- What a plan gives when it is drained is determined by its rows. -/
theorem planRows_eq (plan : Except ExecutionError SolutionCursor) :
    planRows plan = (plan.map Cursor.rows).bind Rows.toExcept := by
  rw [bind_map]
  unfold planRows
  congr 1
  funext c
  exact c.toList_eq_rows

/-- Whether a plan gives a row is determined by its rows. -/
theorem bind_isInhabited (plan : Except ExecutionError SolutionCursor) :
    plan.bind Cursor.isInhabited = (plan.map Cursor.rows).bind Rows.isInhabited := by
  rw [bind_map]
  congr 1
  funext c
  exact c.isInhabited_eq_rows

/-! ## Planning an element -/

/-- What a draft will hand out once the patterns that wait are on top. -/
def Draft.outcome (env : Env) (elements : List Element) (d : Draft) : GroupRows :=
  ((elementsPlan env elements d).bind (Draft.joined env)).map fun d => d.root.rows

/-- An element on top of the patterns that wait goes on from their join. -/
theorem outcome_onTop (env : Env) (elements : List Element) (d : Draft) (binds : List String)
    (element : SolutionCursor → Except ExecutionError SolutionCursor)
    (meaning : Rows ExecutionError Solution → GroupRows)
    (h : ∀ root, (element root).map Cursor.rows = meaning root.rows)
    (ih : ∀ d : Draft, d.outcome env elements =
      elementRows env elements d.bound d.waiting d.root.rows) :
    (d.onTop env binds element).bind (Draft.outcome env elements) =
      (scanRows env (joinOrder d.bound d.waiting) d.root.rows).bind fun rows =>
        (meaning rows).bind
          (elementRows env elements (d.bound ++ d.waiting.flatMap Pattern.vars ++ binds) []) := by
  unfold Draft.onTop Draft.joined
  rw [← planScans_rows]
  simp only [bind_assoc, bind_map, ← h, ih]

/-- The first element is planned before the others. -/
theorem outcome_cons (env : Env) (element : Element) (rest : List Element) (d : Draft) :
    d.outcome env (element :: rest) =
      (elementPlan env element d).bind (Draft.outcome env rest) := by
  unfold Draft.outcome
  rw [elementsPlan, bind_assoc, map_bind]

mutual

/-- The plan of a group hands out the rows of the group. -/
theorem groupPlan_rows (env : Env) (g : Group) (seed : Solution) :
    (groupPlan env g seed).map Cursor.rows = groupRows env g seed := by
  match g with
  | .mk elements =>
    have hs := elements_outcome env elements ⟨.ofList [seed], env.names.boundNames seed, []⟩
    simp only [Cursor.rows_ofList] at hs
    simp only [groupPlan, groupRows, map_map, Cursor.rows_filters, ← hs, Draft.outcome]
    simp only [planConditions_eq env elements]

/-- The elements of a group replace rows as they do in its meaning. -/
theorem elements_outcome (env : Env) (elements : List Element) (d : Draft) :
    d.outcome env elements = elementRows env elements d.bound d.waiting d.root.rows := by
  match elements with
  | [] =>
    show (d.joined env).map (fun d => d.root.rows) = scanRows env _ _
    unfold Draft.joined
    rw [map_map, ← planScans_rows]
  | .triples patterns :: rest =>
    rw [outcome_cons]
    exact elements_outcome env rest { d with waiting := d.waiting ++ patterns }
  | .filter condition :: rest =>
    rw [outcome_cons]
    exact elements_outcome env rest d
  | .optional group :: rest =>
    rw [outcome_cons, elementPlan, outcome_onTop env rest d group.vars _
      (fun rows => .ok (rows.flatMap fun row =>
        ((groupRows env group row).bind Rows.toExcept).map (orKeep row))) _
      (elements_outcome env rest)]
    · rfl
    · intro root
      simp only [planRows_eq, groupPlan_rows env group]
      rfl
  | .union branches :: rest =>
    rw [outcome_cons, elementPlan, outcome_onTop env rest d _ _
      (fun rows => .ok (tableRows (branchRows env branches) joinTable rows)) _
      (elements_outcome env rest)]
    · rfl
    · intro root
      show Except.ok (Cursor.rows _) = _
      rw [Cursor.rows_flatMapTable, branchPlans_rows env branches]
  | .group inner :: rest =>
    rw [outcome_cons, elementPlan, outcome_onTop env rest d _ _
      (fun rows => .ok (tableRows
        ((groupRows env inner (.unbound env.names.length)).bind Rows.toExcept) joinTable rows)) _
      (elements_outcome env rest)]
    · rfl
    · intro root
      show Except.ok (Cursor.rows _) = _
      rw [Cursor.rows_flatMapTable, planRows_eq, groupPlan_rows env inner]
  | .minus group :: rest =>
    rw [outcome_cons, elementPlan, outcome_onTop env rest d _ _
      (fun rows => .ok (tableRows
        ((groupRows env group (.unbound env.names.length)).bind Rows.toExcept)
        keepUnlessExcluded rows)) _ (elements_outcome env rest), List.append_nil]
    · rfl
    · intro root
      show Except.ok (Cursor.rows _) = _
      rw [Cursor.rows_flatMapTable, planRows_eq, groupPlan_rows env group]
  | .bind value name :: rest =>
    rw [outcome_cons, elementPlan, outcome_onTop env rest d _ _
      (fun rows => (env.names.slotOf name).map fun slot =>
        rows.map (assign slot (valueAt env value))) _ (elements_outcome env rest)]
    · simp only [bind_map]
      rfl
    · intro root
      simp only [map_map, Cursor.rows_map, planValue_eq env value]
  | .data block :: rest =>
    rw [outcome_cons, elementPlan, outcome_onTop env rest d _ _
      (fun rows => (dataRows env.names block).map fun table =>
        rows.flatMap fun row => .ok (joinTable table row)) _ (elements_outcome env rest)]
    · simp only [bind_map]
      rfl
    · intro root
      simp only [map_map, Cursor.rows_flatMap]

/-- The branches of a union are read one after the other. -/
theorem branchPlans_rows (env : Env) (branches : List Group) :
    planRowsOfAll (branchPlans env branches) = branchRows env branches := by
  match branches with
  | [] => rfl
  | branch :: rest =>
    simp only [branchPlans, planRowsOfAll, branchRows, planRows_eq, groupPlan_rows env branch,
      branchPlans_rows env rest]

/-- The conditions that a plan ends with are those of the group. -/
theorem planConditions_eq (env : Env) (elements : List Element) :
    (planConditions env elements).map ULift.down = conditions env elements := by
  match elements with
  | [] => rfl
  | .filter condition :: rest =>
    simp only [planConditions, planCondition, conditions, List.cons_append, List.nil_append,
      List.map_cons, planValue_eq env condition, planConditions_eq env rest]
  | .triples _ :: rest | .optional _ :: rest | .union _ :: rest | .group _ :: rest
  | .minus _ :: rest | .bind _ _ :: rest | .data _ :: rest =>
    exact planConditions_eq env rest

/-- Plans evaluate expressions as their meaning does. -/
theorem planValue_eq (env : Env) (e : Expr) : (planValue env e).down = valueAt env e := by
  match e with
  | .var name => rfl
  | .const t => rfl
  | .binary op left right =>
    simp only [planValue, valueAt, planValue_eq env left, planValue_eq env right]
  | .unary op operand => simp only [planValue, valueAt, planValue_eq env operand]
  | .call f args => simp only [planValue, valueAt, planValues_eq env args]
  | .member negated operand items =>
    simp only [planValue, valueAt, planValue_eq env operand, planValues_eq env items]
  | .exists negated group =>
    simp only [planValue, valueAt, bind_isInhabited, groupPlan_rows env group]

/-- Plans evaluate lists of expressions as their meaning does. -/
theorem planValues_eq (env : Env) (es : List Expr) :
    (planValues env es).map ULift.down = valuesAt env es := by
  match es with
  | [] => rfl
  | e :: rest =>
    simp only [planValues, valuesAt, List.map_cons, planValue_eq env e, planValues_eq env rest]

end

end RdfStore.Eval
