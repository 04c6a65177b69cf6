import RdfStore.Proofs.Eval.Conditions

/-!
# Membership

Membership in a list is the disjunction of the comparisons with its items: both stop at the first
comparison that holds, and without one an error is the outcome as soon as some comparison has no
value. So the order and the grouping of the comparisons do not matter.
-/

set_option autoImplicit false

namespace RdfStore

open Query

/-! ## Disjunctions -/

namespace Truth

/-- The disjunction of truth values some of which may be absent. -/
def any? : List (Option Bool) → Option Bool
  | [] => some false
  | a :: rest => or? a fun _ => any? rest

/-- Disjunctions can be taken together from the left or from the right. -/
theorem or?_assoc (a b c : Option Bool) :
    or? (or? a fun _ => b) (fun _ => c) = or? a fun _ => or? b fun _ => c := by
  rcases a with _ | _ | _ <;> rcases b with _ | _ | _ <;> rcases c with _ | _ | _ <;> rfl

/-- A disjunction with a falsehood is worth its other side. -/
theorem or?_false (a : Option Bool) : (or? a fun _ => some false) = a := by
  rcases a with _ | _ | _ <;> rfl

/-- Some of two lists of truth values hold if some of the one or of the other do. -/
theorem any?_append (as bs : List (Option Bool)) :
    any? (as ++ bs) = or? (any? as) fun _ => any? bs := by
  induction as with
  | nil => rfl
  | cons a rest ih => rw [List.cons_append, any?, any?, ih, or?_assoc]

/-- Without any truth value a disjunction has none. -/
theorem any?_replicate_none (n : Nat) : any? (List.replicate (n + 1) none) = none := by
  induction n with
  | zero => rfl
  | succ n ih => rw [List.replicate_succ, any?, ih]; rfl

end Truth

namespace Query.Expr

/-- The conditions that are joined by `||` in a condition. -/
def disjuncts : Expr → List Expr
  | .binary .or left right => left.disjuncts ++ right.disjuncts
  | e => [e]

/-- The comparison of an expression with another. -/
def equals (e item : Expr) : Expr := .binary (.compare .eq) e item

/-- The comparisons of an expression with items, joined by `||` from the left. -/
def equalsAny (e first : Expr) (rest : List Expr) : Expr :=
  rest.foldl (fun joined item => .binary .or joined (e.equals item)) (e.equals first)

/-- The disjuncts of a membership are its equalities, in their order. -/
theorem disjuncts_equalsAny (e first : Expr) (rest : List Expr) :
    (equalsAny e first rest).disjuncts = (first :: rest).map e.equals := by
  have hjoined : ∀ (items : List Expr) (joined : Expr),
      (items.foldl (fun joined item => .binary .or joined (e.equals item)) joined).disjuncts =
        joined.disjuncts ++ items.map e.equals := by
    intro items
    induction items with
    | nil => intro joined; simp
    | cons item items ih =>
      intro joined
      rw [List.foldl_cons, ih, disjuncts, List.append_assoc]
      rfl
  exact hjoined rest (e.equals first)

end Query.Expr

namespace Eval

open RdfStore.Eval.Valuation

variable {env : Env}

/-- A disjunction is true or false as its sides are, by the three-valued rule. -/
theorem truth?_or (left right : Valuation) (row : Solution) :
    (binary .or left right).truth? row =
      Truth.or? (left.truth? row) fun _ => right.truth? row :=
  Truth.bind_ofTerm? _

/-- The truth value of a condition is the disjunction of those that it is joined of. -/
theorem truth?_disjuncts (condition : Expr) (row : Solution) :
    (planValue env condition).down.truth? row =
      Truth.any? (condition.disjuncts.map fun part => (planValue env part).down.truth? row) := by
  fun_induction Expr.disjuncts condition with
  | case1 left right ihleft ihright =>
    rw [planValue, truth?_or, List.map_append, Truth.any?_append, ihleft, ihright]
  | case2 e => exact (Truth.or?_false _).symm

/-- The outcome of comparing two values for equality. -/
def equal? (left right : Option Term) : Option Bool :=
  left.bind fun t => right.bind fun u => compareTerms? .eq t u

/-- Comparing for equality gives the term of the truth value. -/
theorem binary_compare_eq (left right : Valuation) (row : Solution) :
    binary (.compare .eq) left right row =
      (equal? (left row) (right row)).map Truth.toTerm := by
  unfold binary equal?
  cases left row with
  | none => rfl
  | some t =>
    cases right row with
    | none => rfl
    | some u =>
      show (compareTerms? .eq t u).bind (fun b => some (Truth.toTerm b)) = _
      exact Option.map_eq_bind.symm

/-- An equality is planned as the comparison of the two values. -/
theorem equals_eq (e item : Expr) (row : Solution) :
    (planValue env (e.equals item)).down row =
      (equal? ((planValue env e).down row) ((planValue env item).down row)).map Truth.toTerm := by
  rw [Expr.equals, planValue]
  exact binary_compare_eq _ _ row

/-- The truth of an equality is the comparison of the two values. -/
theorem truth?_equals (e item : Expr) (row : Solution) :
    (planValue env (e.equals item)).down.truth? row =
      equal? ((planValue env e).down row) ((planValue env item).down row) := by
  rw [truth?, equals_eq, Truth.bind_ofTerm?]

/-- The value of a disjunction of comparisons is a truth value, or there is none. -/
theorem planValue_of_disjuncts {e d : Expr} {items : List Expr}
    (h : d.disjuncts = items.map e.equals) (row : Solution) :
    (planValue env d).down row = ((planValue env d).down.truth? row).map Truth.toTerm := by
  -- what is joined by `||` gives a truth value of itself; else there is one comparison
  by_cases hor : ∃ left right, d = .binary .or left right
  · obtain ⟨left, right, rfl⟩ := hor
    rw [planValue, truth?_or]
    rfl
  · have hsingle : d.disjuncts = [d] := by
      unfold Expr.disjuncts
      split
      · exact absurd ⟨_, _, rfl⟩ hor
      · rfl
    have hmem : d ∈ items.map e.equals := h ▸ hsingle ▸ List.mem_singleton_self d
    obtain ⟨item, -, rfl⟩ := List.mem_map.mp hmem
    rw [truth?_equals, equals_eq]

/-! ## Membership -/

/-- Looking for a term among items is the disjunction of comparing it with each. -/
theorem isMember?_eq (t : Term) (row : Solution) (items : List Valuation) :
    isMember? t row items = Truth.any? (items.map fun item => equal? (some t) (item row)) := by
  induction items with
  | nil => rfl
  | cons item rest ih =>
    rw [isMember?, List.map_cons, Truth.any?, ← ih]
    unfold equal?
    rw [Option.bind_some]
    cases (item row).bind fun u => compareTerms? .eq t u with
    | none => rfl
    | some b => cases b <;> rfl

/-- Expressions in a row are planned one by one. -/
theorem down_planValues (env : Env) (items : List Expr) :
    (planValues env items).map ULift.down = items.map fun item => (planValue env item).down := by
  induction items with
  | nil => rfl
  | cons item rest ih => rw [planValues, List.map_cons, List.map_cons, ih]

/-- The outcome of looking for the value of an expression among those of items. -/
def found? (env : Env) (e : Expr) (items : List Expr) (row : Solution) : Option Bool :=
  Truth.any? (items.map fun item =>
    equal? ((planValue env e).down row) ((planValue env item).down row))

/-- A term among items, and an operand without a value among one item or more. -/
theorem member_eq (negated : Bool) (operand : Valuation) {items : List Valuation}
    (h : items ≠ []) (row : Solution) :
    member negated operand items row =
      (Truth.any? (items.map fun item => equal? (operand row) (item row))).map
        fun b => Truth.toTerm (b != negated) := by
  unfold Valuation.member
  cases operand row with
  | none =>
    -- the operand is evaluated first, and each of the comparisons fails with it
    obtain ⟨first, rest, rfl⟩ := List.exists_cons_of_ne_nil h
    have hnone : ((first :: rest).map fun item => equal? none (item row)) =
        List.replicate (rest.length + 1) none :=
      List.map_eq_replicate_iff.mpr fun _ _ => rfl
    rw [hnone, Truth.any?_replicate_none]
    rfl
  | some t =>
    rw [← isMember?_eq]
    exact Option.map_eq_bind.symm

/-- Membership is planned as the search among the items, turned round if it is negated. -/
theorem planValue_member (negated : Bool) (e first : Expr) (rest : List Expr) (row : Solution) :
    (planValue env (.member negated e (first :: rest))).down row =
      (found? env e (first :: rest) row).map fun b => Truth.toTerm (b != negated) := by
  have hitems : (first :: rest).map (fun item => (planValue env item).down) ≠ [] := by simp
  rw [planValue, down_planValues, found?]
  show member negated (planValue env e).down _ row = _
  rw [member_eq negated _ hitems, List.map_map]
  rfl

/-- A negation is the opposite of what its operand is worth. -/
theorem unary_not (operand : Valuation) (row : Solution) :
    unary .not operand row = (operand.truth? row).map fun b => Truth.toTerm !b := by
  unfold unary truth?
  cases operand row with
  | none => rfl
  | some t => exact Option.map_eq_bind.symm

/-- For every expression and every list of one item or more, on every store and at every row,
membership and the disjunction of the comparisons with the items, joined in whatever way, have one
outcome, a truth value or none; and absence from the list has the outcome of negated membership. -/
theorem membership_eq_disjunction (env : Env) (e first : Expr) (rest : List Expr)
    (row : Solution) :
    (∃ found : Option Bool,
      (planValue env (.member false e (first :: rest))).down row = found.map Truth.toTerm ∧
      (planValue env (e.equalsAny first rest)).down row = found.map Truth.toTerm ∧
      ∀ d : Expr, d.disjuncts = (first :: rest).map e.equals →
        (planValue env d).down row = found.map Truth.toTerm) ∧
    (planValue env (.member true e (first :: rest))).down row =
      (planValue env (.unary .not (.member false e (first :: rest)))).down row := by
  have hmember : (planValue env (.member false e (first :: rest))).down row =
      (found? env e (first :: rest) row).map Truth.toTerm := by
    rw [planValue_member]
    simp only [Bool.bne_false]
  have hjoined : ∀ d : Expr, d.disjuncts = (first :: rest).map e.equals →
      (planValue env d).down row = (found? env e (first :: rest) row).map Truth.toTerm := by
    intro d hd
    rw [planValue_of_disjuncts hd, truth?_disjuncts, hd, List.map_map]
    unfold found?
    congr 2
    refine List.map_congr_left fun item _ => ?_
    exact truth?_equals e item row
  refine ⟨⟨_, hmember, hjoined _ (Expr.disjuncts_equalsAny e first rest), hjoined⟩, ?_⟩
  rw [planValue_member, planValue]
  show _ = unary .not (planValue env (.member false e (first :: rest))).down row
  rw [unary_not, truth?, hmember]
  cases found? env e (first :: rest) row with
  | none => rfl
  | some b =>
    rw [Option.map_some, Option.map_some, Option.bind_some, Truth.ofTerm?_toTerm, Bool.bne_true]
    rfl

/-- Items that have no value, that differ and that match, with the comparisons joined from the
right. -/
theorem membership_eq_disjunction_unbound :
    let env : Env := ⟨Store.refilled, ["x"]⟩
    let one : Expr := .const (.literal (.ofInt 1))
    let two : Expr := .const (.literal (.ofInt 2))
    let joined : Expr := .binary .or (one.equals (.var "x"))
      (.binary .or (one.equals two) (one.equals one))
    joined.disjuncts = [.var "x", two, one].map one.equals ∧
      ∃ found : Option Bool,
        (planValue env (.member false one [.var "x", two, one])).down [none] =
          found.map Truth.toTerm ∧
        (planValue env joined).down [none] = found.map Truth.toTerm := by
  intro env one two joined
  have hdisjuncts : joined.disjuncts = [.var "x", two, one].map one.equals := rfl
  obtain ⟨found, hmember, -, hjoined⟩ :=
    (membership_eq_disjunction env one (.var "x") [two, one] [none]).1
  exact ⟨hdisjuncts, found, hmember, hjoined joined hdisjuncts⟩

end Eval

end RdfStore
