import RdfStore.Proofs.Eval.GroupPlan
import RdfStore.Proofs.Store.Refinement

/-!
# Conditions of a group

The conditions among the elements of a group take no part in planning the others: the rows of the
group are those without the conditions, filtered by all of them. So it does not matter where in the
group a condition stands, in which order they are tried, or whether some are joined by `&&`: a
conjunction holds where both sides hold, also when one of them has no value.
-/

set_option autoImplicit false

namespace RdfStore

/-- A truth value seen as a term is that truth value. -/
theorem Truth.ofTerm?_toTerm (b : Bool) : Truth.ofTerm? (Truth.toTerm b) = some b := by
  cases b <;> decide

/-- A truth value can be read back from its term. -/
theorem Truth.bind_ofTerm? (a : Option Bool) : (a.map Truth.toTerm).bind Truth.ofTerm? = a := by
  cases a with
  | none => rfl
  | some b => exact Truth.ofTerm?_toTerm b

namespace Query

/-- The condition that an element stands for, if it is one. -/
def Element.condition? : Element → Option Expr
  | .filter condition => some condition
  | _ => none

/-- The conditions among elements. -/
def conditionsIn (elements : List Element) : List Expr := elements.filterMap Element.condition?

/-- The elements that are not conditions. -/
def withoutConditions (elements : List Element) : List Element :=
  elements.filter fun element => element.condition?.isNone

/-- The conditions that are joined by `&&` in a condition. -/
def Expr.conjuncts : Expr → List Expr
  | .binary .and left right => left.conjuncts ++ right.conjuncts
  | e => [e]

end Query

namespace Eval

open Query

variable {env : Env}

/-- Whether a row passes a condition. -/
def passes (env : Env) (condition : Expr) (row : Solution) : Bool :=
  (planValue env condition).down.holds row

/-- A conjunction is true or false as its sides are, by the three-valued rule. -/
theorem truth?_and (left right : Valuation) (row : Solution) :
    (Valuation.binary .and left right).truth? row =
      Truth.and? (left.truth? row) fun _ => right.truth? row :=
  Truth.bind_ofTerm? _

/-- A row passes a conjunction where it passes both sides; a side without a value is not passed. -/
theorem passes_and (left right : Expr) (row : Solution) :
    passes env (.binary .and left right) row = (passes env left row && passes env right row) := by
  unfold passes Valuation.holds
  rw [planValue, truth?_and]
  generalize (planValue env left).down.truth? row = a
  generalize (planValue env right).down.truth? row = b
  rcases a with _ | _ | _ <;> rcases b with _ | _ | _ <;> rfl

/-- A row passes a conjunction if it passes each of its parts. -/
theorem passes_conjuncts (condition : Expr) (row : Solution) :
    passes env condition row = condition.conjuncts.all fun part => passes env part row := by
  fun_induction Expr.conjuncts condition with
  | case1 left right ihleft ihright => rw [passes_and, List.all_append, ihleft, ihright]
  | case2 e => simp

/-! ## Elements -/

/-- An element that is no condition stays when conditions are taken out. -/
theorem withoutConditions_cons {element : Element} (h : element.condition? = none)
    (rest : List Element) :
    withoutConditions (element :: rest) = element :: withoutConditions rest :=
  List.filter_cons_of_pos (by rw [h]; rfl)

/-- Conditions are passed over when elements are planned. -/
theorem elementRows_withoutConditions (elements : List Element) (bound : List String)
    (waiting : List Pattern) (rows : Rows ExecutionError Solution) :
    elementRows env (withoutConditions elements) bound waiting rows =
      elementRows env elements bound waiting rows := by
  induction elements generalizing bound waiting rows with
  | nil => rfl
  | cons element rest ih =>
    cases element with
    | filter condition => exact ih bound waiting rows
    | triples | «optional» | union | group | minus | bind | data =>
      rw [withoutConditions_cons rfl]
      simp only [elementRows, ih]

/-- The conditions of a group are the planned values of its filters, in their order. -/
theorem conditions_eq_map (elements : List Element) :
    conditions env elements =
      (conditionsIn elements).map fun condition => (planValue env condition).down := by
  induction elements with
  | nil => rfl
  | cons element rest ih =>
    cases element with
    | filter condition =>
      show valueAt env condition :: conditions env rest =
        (planValue env condition).down :: (conditionsIn rest).map _
      rw [planValue_eq, ih]
    | triples | «optional» | union | group | minus | bind | data => exact ih

/-- No conditions are left where they were taken out. -/
theorem conditionsIn_withoutConditions (elements : List Element) :
    conditionsIn (withoutConditions elements) = [] := by
  refine List.filterMap_eq_nil_iff.mpr fun element helement => ?_
  exact Option.isNone_iff_eq_none.mp (List.mem_filter.mp helement).2

/-! ## Groups -/

/-- All conditions of a group hold in a row if it passes each filter. -/
theorem all_conditions (elements : List Element) (row : Solution) :
    ((conditions env elements).all fun condition => condition.holds row) =
      (conditionsIn elements).all fun e => passes env e row := by
  rw [conditions_eq_map, List.all_map]
  rfl

/-- The rows of a group are those without its conditions that pass all of them. -/
theorem rows_groupPlan (elements : List Element) (seed : Solution) :
    (groupPlan env (.mk elements) seed).map Cursor.rows =
      (groupPlan env (.mk (withoutConditions elements)) seed).map fun c =>
        c.rows.filter fun row => (conditionsIn elements).all fun e => passes env e row := by
  rw [← map_map _ Cursor.rows, groupPlan_rows, groupPlan_rows]
  simp only [groupRows, map_map, all_conditions, elementRows_withoutConditions,
    conditionsIn_withoutConditions, List.all_nil, Rows.filter_true]

/-- A row passes conditions where it passes what they are joined of. -/
theorem all_passes_eq (conditions : List Expr) (row : Solution) :
    (conditions.all fun e => passes env e row) =
      (conditions.flatMap Expr.conjuncts).all fun e => passes env e row := by
  rw [List.all_flatMap]
  congr 1
  funext e
  exact passes_conjuncts e row

/-- On every store and from every seed, the conditions of a group keep the rows of its other
elements that pass all of them, in their order and with their end. So only what they are joined of
counts: groups that differ in the places of their conditions, in the order of these or in whether
they are joined by `&&` hand out the same rows. -/
theorem groupPlan_conditions (env : Env) (seed : Solution) :
    (∀ elements : List Element,
      (groupPlan env (.mk elements) seed).map Cursor.rows =
        (groupPlan env (.mk (withoutConditions elements)) seed).map fun c =>
          c.rows.filter fun row => (conditionsIn elements).all fun e => passes env e row) ∧
    ∀ elements others : List Element, withoutConditions elements = withoutConditions others →
      (∀ e, e ∈ (conditionsIn elements).flatMap Expr.conjuncts ↔
        e ∈ (conditionsIn others).flatMap Expr.conjuncts) →
      (groupPlan env (.mk elements) seed).map Cursor.rows =
        (groupPlan env (.mk others) seed).map Cursor.rows := by
  refine ⟨fun elements => rows_groupPlan elements seed, fun elements others hsame hjoined => ?_⟩
  have hpasses : ∀ row, ((conditionsIn elements).all fun e => passes env e row) =
      (conditionsIn others).all fun e => passes env e row := by
    intro row
    rw [all_passes_eq, all_passes_eq (conditionsIn others), Bool.eq_iff_iff, List.all_eq_true,
      List.all_eq_true]
    simp only [hjoined]
  rw [rows_groupPlan elements, rows_groupPlan others, hsame]
  simp only [hpasses]

/-- Whether the one who is known knows somebody. -/
def isAcquainted : Expr :=
  .exists false (.mk [.triples [⟨.var "y", .term (.iri ⟨"http://example.org/knows"⟩), .var "w"⟩]])

/-- A comparison that has no value where the second variable is not bound. -/
def areDifferent : Expr := .binary (.compare .ne) (.var "x") (.var "z")

/-- People who are known and others whom they may know; the conditions are before and between the
patterns. -/
def scattered : List Element :=
  let knows : Place := .term (.iri ⟨"http://example.org/knows"⟩)
  [.filter isAcquainted, .triples [⟨.var "x", knows, .var "y"⟩], .filter areDifferent,
    .triples [⟨.var "y", knows, .var "v"⟩],
    .optional (.mk [.triples [⟨.var "v", knows, .var "z"⟩]])]

/-- The same group with one condition at its end. -/
def collected : List Element :=
  withoutConditions scattered ++ [.filter (.binary .and areDifferent isAcquainted)]

/-- Two conditions can be taken out of a run of patterns and put at the end of the group as one. -/
theorem groupPlan_conditions_scattered :
    let env : Env := ⟨Store.refilled, ["x", "y", "w", "z", "v"]⟩
    let seed : Solution := .unbound 5
    withoutConditions scattered = withoutConditions collected ∧
      (∀ e, e ∈ (conditionsIn scattered).flatMap Expr.conjuncts ↔
        e ∈ (conditionsIn collected).flatMap Expr.conjuncts) ∧
      (groupPlan env (.mk scattered) seed).map Cursor.rows =
        (groupPlan env (.mk collected) seed).map Cursor.rows := by
  intro env seed
  have hsame : withoutConditions scattered = withoutConditions collected := rfl
  have hjoined : ∀ e, e ∈ (conditionsIn scattered).flatMap Expr.conjuncts ↔
      e ∈ (conditionsIn collected).flatMap Expr.conjuncts :=
    fun _ => (List.Perm.swap areDifferent isAcquainted []).mem_iff
  exact ⟨hsame, hjoined, (groupPlan_conditions env seed).2 scattered collected hsame hjoined⟩

end Eval

end RdfStore
