import RdfStore.Eval.Meaning
import RdfStore.Proofs.Eval.GroupPlan
import RdfStore.Proofs.Eval.Scope
import RdfStore.Proofs.Store.Refinement

/-!
# Plans of groups hand out what groups mean

Draining the plan of a plannable group gives the list `groupSolutions`, in its order. The
plan was shown to hand out `groupRows`; for a plannable group none of its rows is an error,
at any depth, and then `groupRows` computes what the plain lists do. Choosing the cheapest
pattern again and again places every pattern exactly once, so the join order leaves out none
of them. Expressions take part in the induction: a group in `EXISTS` has to be plannable too,
or else the expression would have no value where the plain lists give it one.
-/

set_option autoImplicit false

namespace RdfStore.Eval

open Query

/-! ## The join order -/

/-- There is a cheapest pattern unless there is none at all. -/
theorem cheapest?_eq_none {bound : List String} {patterns : List Pattern}
    (h : cheapest? bound patterns = none) : patterns = [] := by
  cases patterns with
  | nil => rfl
  | cons q rest =>
    unfold cheapest? at h
    split at h
    · split at h <;> cases h
    · cases h

/-- The pattern that is taken out costs less than those before it and no more than those behind it,
and the others keep their places. -/
theorem cheapest?_split {bound : List String} {patterns others : List Pattern} {p : Pattern}
    (h : cheapest? bound patterns = some (p, others)) :
    ∃ front back, patterns = front ++ p :: back ∧ others = front ++ back ∧
      (∀ q ∈ front, fixedCount bound q < fixedCount bound p) ∧
      ∀ q ∈ back, fixedCount bound q ≤ fixedCount bound p := by
  induction patterns generalizing p others with
  | nil => cases h
  | cons q rest ih =>
    unfold cheapest? at h
    split at h
    · rename_i r more hr
      obtain ⟨front, back, hrest, hmore, hfront, hback⟩ := ih hr
      split at h
      · rename_i hlt
        cases h
        refine ⟨q :: front, back, by rw [hrest, List.cons_append], by rw [hmore, List.cons_append],
          fun x hx => ?_, hback⟩
        rcases List.mem_cons.mp hx with rfl | hx
        · exact hlt
        · exact hfront x hx
      · rename_i hge
        cases h
        refine ⟨[], rest, rfl, rfl, fun _ hx => absurd hx List.not_mem_nil, fun x hx => ?_⟩
        -- no pattern of the rest has more than its cheapest one, and that one has no more than `q`
        have hx' : fixedCount bound x ≤ fixedCount bound r := by
          rw [hrest] at hx
          rcases List.mem_append.mp hx with hx | hx
          · exact Nat.le_of_lt (hfront x hx)
          · rcases List.mem_cons.mp hx with rfl | hx
            · exact Nat.le_refl _
            · exact hback x hx
        exact Nat.le_trans hx' (Nat.not_lt.mp hge)
    · rename_i hr
      cases h
      rw [cheapest?_eq_none hr]
      exact ⟨[], [], rfl, rfl, fun _ hx => absurd hx List.not_mem_nil,
        fun _ hx => absurd hx List.not_mem_nil⟩

/-- Taking out the cheapest pattern loses none. -/
theorem cheapest?_perm {bound : List String} {patterns others : List Pattern} {p : Pattern}
    (h : cheapest? bound patterns = some (p, others)) : (p :: others).Perm patterns := by
  obtain ⟨front, back, rfl, rfl, -, -⟩ := cheapest?_split h
  exact List.perm_middle.symm

/-- The join order places every pattern once. -/
theorem joinOrder_perm (bound : List String) (patterns : List Pattern) :
    (joinOrder bound patterns).Perm patterns := by
  fun_induction joinOrder bound patterns with
  | case1 bound patterns h => rw [cheapest?_eq_none h]
  | case2 bound patterns p others h ih => exact (ih.cons p).trans (cheapest?_perm h)

/-- There is nothing to order without patterns. -/
@[simp] theorem joinOrder_nil (bound : List String) : joinOrder bound [] = [] :=
  List.perm_nil.mp (joinOrder_perm bound [])

/-! ## Rows that are those of a list -/

/-- Rows put before those of a list are those of the longer list. -/
theorem prepend_ofList (front list : List Solution) :
    Rows.prepend front (.ofList list) =
      (.ofList (front ++ list) : Rows ExecutionError Solution) := by
  induction front with
  | nil => rfl
  | cons a front ih =>
    rw [Rows.prepend, ih]
    rfl

/-- Replacements that never fail replace the rows of a list as they would in the list. -/
theorem flatMap_ofList {f : Solution → Except ExecutionError (List Solution)}
    {g : Solution → List Solution} (h : ∀ row, f row = .ok (g row)) (list : List Solution) :
    (Rows.ofList list).flatMap f = .ofList (list.flatMap g) := by
  induction list with
  | nil => rfl
  | cons row rest ih =>
    rw [Rows.ofList, Rows.flatMap, h, ih, List.flatMap_cons]
    exact prepend_ofList (g row) (rest.flatMap g)

/-- A condition keeps the rows of a list that it keeps in the list. -/
theorem filter_ofList (p : Solution → Bool) (list : List Solution) :
    (Rows.ofList list).filter p =
      (.ofList (list.filter p) : Rows ExecutionError Solution) := by
  rw [Rows.filter, flatMap_ofList fun row => rfl]
  congr 1
  induction list with
  | nil => rfl
  | cons row rest ih =>
    rw [List.flatMap_cons, ih, List.filter_cons]
    split <;> rfl

/-- Mapping the rows of a list maps the list. -/
theorem map_ofList (f : Solution → Solution) (list : List Solution) :
    (Rows.ofList list).map f = (.ofList (list.map f) : Rows ExecutionError Solution) := by
  rw [Rows.map, flatMap_ofList fun row => rfl, ← List.map_eq_flatMap]

/-- A row exists among the rows of a list unless the list is empty. -/
theorem isInhabited_ofList (list : List Solution) :
    (Rows.ofList list : Rows ExecutionError Solution).isInhabited = .ok !list.isEmpty := by
  cases list <;> rfl

/-! ## Patterns that can be scanned -/

/-- A pattern whose variables have slots and that has no labels. -/
def IsScannable (names : Slots) (p : Pattern) : Prop :=
  ∃ scan, Scan.ofPattern names p = .ok scan

/-- Scans of such patterns are nested loops. -/
theorem scanRows_ofList (env : Env) {patterns : List Pattern}
    (h : ∀ p ∈ patterns, IsScannable env.names p) (list : List Solution) :
    scanRows env patterns (.ofList list) = .ok (.ofList (joinSolutions env patterns list)) := by
  induction patterns generalizing list with
  | nil => rfl
  | cons p rest ih =>
    obtain ⟨scan, hs⟩ := h p List.mem_cons_self
    have hm : ∀ row, (.ok (scan.rows env.store row) : Except ExecutionError _) =
        .ok (matchSolutions env p row) := by
      intro row
      unfold matchSolutions
      rw [hs]
    rw [scanRows, hs, Except.bind, flatMap_ofList hm]
    exact ih (fun q hq => h q (List.mem_cons_of_mem _ hq)) _

/-- So they are in the join order, which only permutes them. -/
theorem joinedRows_ofList (env : Env) {waiting : List Pattern}
    (h : ∀ p ∈ waiting, IsScannable env.names p) (bound : List String)
    (list : List Solution) :
    scanRows env (joinOrder bound waiting) (.ofList list) =
      .ok (.ofList (joinSolutions env (joinOrder bound waiting) list)) :=
  scanRows_ofList env (fun p hp => h p ((joinOrder_perm bound waiting).mem_iff.mp hp)) list

/-- Where no pattern waits, every pattern that waits can be scanned. -/
theorem none_waiting (env : Env) : ∀ p ∈ ([] : List Pattern), IsScannable env.names p :=
  fun _ h => absurd h List.not_mem_nil

/-! ## Plannable groups -/

/-- The table of rows that are a list is this list. -/
theorem table_ofList {rows : GroupRows} {list : List Solution} (h : rows = .ok (.ofList list)) :
    rows.bind Rows.toExcept = .ok list := by
  rw [h]
  exact Rows.toExcept_ofList list

mutual

/-- The rows of a plannable group are its solutions. -/
theorem groupRows_eq (env : Env) (g : Group) (hv : ∀ v ∈ addGroup [] g, v ∈ env.names)
    (hl : g.labels = []) (seed : Solution) :
    groupRows env g seed = .ok (.ofList (groupSolutions env g seed)) := by
  match g with
  | .mk elements =>
    rw [groupRows, groupSolutions, elementRows_eq env elements hv hl _ (none_waiting env),
      conditions_eq env elements hv hl, Except.map, filter_ofList]

/-- The rows after plannable elements are the solutions after them. -/
theorem elementRows_eq (env : Env) (elements : List Element)
    (hv : ∀ v ∈ addElements [] elements, v ∈ env.names) (hl : elementLabels elements = [])
    (bound : List String) {waiting : List Pattern}
    (hw : ∀ p ∈ waiting, IsScannable env.names p) (list : List Solution) :
    elementRows env elements bound waiting (.ofList list) =
      .ok (.ofList (elementSolutions env elements bound waiting list)) := by
  match elements with
  | [] => exact joinedRows_ofList env hw bound list
  | element :: rest =>
    have hvFirst : ∀ v ∈ addElement [] element, v ∈ env.names := fun v h =>
      hv v ((mem_addElements rest).mpr (Or.inl h))
    have hvRest : ∀ v ∈ addElements [] rest, v ∈ env.names := fun v h =>
      hv v ((mem_addElements rest).mpr (Or.inr h))
    obtain ⟨hlFirst, hlRest⟩ := List.append_eq_nil_iff.mp hl
    -- all but patterns and conditions first join the patterns that wait
    have hj := joinedRows_ofList env hw bound list
    have ih := fun bound => elementRows_eq env rest hvRest hlRest bound (none_waiting env)
    match element with
    | .triples patterns =>
      refine elementRows_eq env rest hvRest hlRest bound ?_ list
      intro p hp
      rcases List.mem_append.mp hp with hp | hp
      · exact hw p hp
      · apply ofPattern_of_covered
        · intro v hpv
          exact hvFirst v (mem_insertNames.mpr (Or.inr (List.mem_flatMap.mpr ⟨p, hp, hpv⟩)))
        · exact List.flatMap_eq_nil_iff.mp hlFirst p hp
    | .filter condition => exact elementRows_eq env rest hvRest hlRest bound hw list
    | .optional group =>
      have hg : ∀ row, ((groupRows env group row).bind Rows.toExcept).map (orKeep row) =
          .ok (orKeep row (groupSolutions env group row)) := by
        intro row
        rw [table_ofList (groupRows_eq env group hvFirst hlFirst row)]
        rfl
      rw [elementRows, elementSolutions, hj, Except.bind, flatMap_ofList hg, ih]
    | .union branches =>
      rw [elementRows, elementSolutions, hj, Except.bind,
        branchRows_eq env branches hvFirst hlFirst, tableRows, flatMap_ofList fun row => rfl, ih]
    | .group inner =>
      rw [elementRows, elementSolutions, hj, Except.bind,
        table_ofList (groupRows_eq env inner hvFirst hlFirst _), tableRows,
        flatMap_ofList fun row => rfl, ih]
    | .minus group =>
      rw [elementRows, elementSolutions, hj, Except.bind,
        table_ofList (groupRows_eq env group hvFirst hlFirst _), tableRows,
        flatMap_ofList fun row => rfl, ih]
    | .bind value name =>
      obtain ⟨slot, hs⟩ := slot?_of_mem (hvFirst name (mem_insertName.mpr (Or.inr rfl)))
      have hvValue : ∀ v ∈ addExpr [] value, v ∈ env.names := fun v h =>
        hvFirst v (mem_insertName.mpr (Or.inl h))
      have ha : assignName env.names name (valueOf env value) =
          assign slot (valueOf env value) := by
        funext row
        unfold assignName
        rw [hs]
      rw [elementRows, elementSolutions, hj, Slots.slotOf, hs, ha,
        valueAt_eq env value hvValue hlFirst]
      simp only [Except.bind, map_ofList, ih]
    | .data block =>
      obtain ⟨slots, hs⟩ := slotsOf_of_subset fun v h =>
        hvFirst v (mem_insertNames.mpr (Or.inr h))
      have hd : dataRows env.names block = .ok (dataSolutions env.names block) := by
        unfold dataSolutions dataRows
        rw [hs]
        rfl
      rw [elementRows, elementSolutions, hj, hd]
      simp only [Except.bind]
      rw [flatMap_ofList fun row => rfl, ih]

/-- The table of plannable branches holds the solutions of all of them. -/
theorem branchRows_eq (env : Env) (branches : List Group)
    (hv : ∀ v ∈ addGroups [] branches, v ∈ env.names) (hl : branchLabels branches = []) :
    branchRows env branches = .ok (branchSolutions env branches) := by
  match branches with
  | [] => rfl
  | branch :: rest =>
    obtain ⟨hlFirst, hlRest⟩ := List.append_eq_nil_iff.mp hl
    have hvFirst : ∀ v ∈ addGroup [] branch, v ∈ env.names := fun v h =>
      hv v ((mem_addGroups rest).mpr (Or.inl h))
    have hvRest : ∀ v ∈ addGroups [] rest, v ∈ env.names := fun v h =>
      hv v ((mem_addGroups rest).mpr (Or.inr h))
    rw [branchRows, branchSolutions, table_ofList (groupRows_eq env branch hvFirst hlFirst _),
      branchRows_eq env rest hvRest hlRest]
    rfl

/-- The conditions among plannable elements mean the same on both sides. -/
theorem conditions_eq (env : Env) (elements : List Element)
    (hv : ∀ v ∈ addElements [] elements, v ∈ env.names) (hl : elementLabels elements = []) :
    conditions env elements = conditionsOf env elements := by
  match elements with
  | [] => rfl
  | element :: rest =>
    have hvFirst : ∀ v ∈ addElement [] element, v ∈ env.names := fun v h =>
      hv v ((mem_addElements rest).mpr (Or.inl h))
    have hvRest : ∀ v ∈ addElements [] rest, v ∈ env.names := fun v h =>
      hv v ((mem_addElements rest).mpr (Or.inr h))
    obtain ⟨hlFirst, hlRest⟩ := List.append_eq_nil_iff.mp hl
    have ih := conditions_eq env rest hvRest hlRest
    match element with
    | .filter condition =>
      rw [conditions, conditionsOf, valueAt_eq env condition hvFirst hlFirst, ih]
    | .triples _ | .optional _ | .union _ | .group _ | .minus _ | .bind _ _ | .data _ =>
      exact ih

/-- An expression over plannable groups means the same on both sides. -/
theorem valueAt_eq (env : Env) (e : Expr) (hv : ∀ v ∈ addExpr [] e, v ∈ env.names)
    (hl : e.labels = []) : valueAt env e = valueOf env e := by
  match e with
  | .var name => rfl
  | .const t => rfl
  | .binary op left right =>
    obtain ⟨hlLeft, hlRight⟩ := List.append_eq_nil_iff.mp hl
    rw [valueAt, valueOf,
      valueAt_eq env left (fun v h => hv v ((mem_addExpr right).mpr (Or.inl h))) hlLeft,
      valueAt_eq env right (fun v h => hv v ((mem_addExpr right).mpr (Or.inr h))) hlRight]
  | .unary op operand => rw [valueAt, valueOf, valueAt_eq env operand hv hl]
  | .call f args => rw [valueAt, valueOf, valuesAt_eq env args hv hl]
  | .member negated operand items =>
    obtain ⟨hlOperand, hlItems⟩ := List.append_eq_nil_iff.mp hl
    rw [valueAt, valueOf,
      valueAt_eq env operand (fun v h => hv v ((mem_addExprs items).mpr (Or.inl h))) hlOperand,
      valuesAt_eq env items (fun v h => hv v ((mem_addExprs items).mpr (Or.inr h))) hlItems]
  | .exists negated group =>
    rw [valueAt, valueOf]
    congr 1
    funext row
    rw [groupRows_eq env group hv hl row, Except.bind, isInhabited_ofList]
    rfl

/-- Expressions over plannable groups mean the same on both sides. -/
theorem valuesAt_eq (env : Env) (es : List Expr) (hv : ∀ v ∈ addExprs [] es, v ∈ env.names)
    (hl : exprLabels es = []) : valuesAt env es = valuesOf env es := by
  match es with
  | [] => rfl
  | e :: rest =>
    obtain ⟨hlFirst, hlRest⟩ := List.append_eq_nil_iff.mp hl
    rw [valuesAt, valuesOf,
      valueAt_eq env e (fun v h => hv v ((mem_addExprs rest).mpr (Or.inl h))) hlFirst,
      valuesAt_eq env rest (fun v h => hv v ((mem_addExprs rest).mpr (Or.inr h))) hlRest]

end

/-- Draining the plan of a plannable group gives its solutions. -/
theorem planRows_of_isPlannable {env : Env} {g : Group} (h : IsPlannable env.names g)
    (seed : Solution) : planRows (groupPlan env g seed) = .ok (groupSolutions env g seed) := by
  rw [planRows_eq, groupPlan_rows]
  exact table_ofList (groupRows_eq env g h.covered h.unlabelled seed)

/-- Draining the plan of a group from a seed gives the rows of the group, in their order, and
fails where these end in an error; those of a plannable group are the list of its
solutions. -/
theorem drain_groupPlan (env : Env) (g : Group) (seed : Solution) :
    planRows (groupPlan env g seed) = (groupRows env g seed).bind Rows.toExcept ∧
      (IsPlannable env.names g →
        planRows (groupPlan env g seed) = .ok (groupSolutions env g seed)) := by
  have hrows : planRows (groupPlan env g seed) = (groupRows env g seed).bind Rows.toExcept := by
    rw [planRows_eq, groupPlan_rows]
  refine ⟨hrows, fun h => ?_⟩
  rw [hrows]
  exact table_ofList (groupRows_eq env g h.covered h.unlabelled seed)

/-- The people with their mailboxes, if any, except those who are known by someone. -/
def strangers : Group :=
  let knows : Term := .iri ⟨"http://example.org/knows"⟩
  let mailbox : Term := .iri ⟨"http://example.org/mailbox"⟩
  .mk [.triples [⟨.var "x", .term knows, .var "y"⟩],
    .filter (.exists true (.mk [.triples [⟨.var "z", .term knows, .var "x"⟩]])),
    .optional (.mk [.triples [⟨.var "x", .term mailbox, .var "m"⟩]])]

/-- The group with an optional and a negated part is plannable, so draining its plan on the refilled
store gives the list of its solutions. -/
theorem drain_groupPlan_strangers :
    let env : Env := ⟨Store.refilled, ["x", "y", "z", "m"]⟩
    IsPlannable env.names strangers ∧ planRows (groupPlan env strangers (.unbound 4)) =
      .ok (groupSolutions env strangers (.unbound 4)) := by
  intro env
  have h : IsPlannable env.names strangers := ⟨by decide, by decide⟩
  exact ⟨h, (drain_groupPlan env strangers (.unbound 4)).2 h⟩

end RdfStore.Eval
