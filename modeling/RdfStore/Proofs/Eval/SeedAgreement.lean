import RdfStore.Proofs.Eval.Growth

/-!
# What a group keeps of its seed

A row of a group gives every term of the seed again, except to variables that the group
assigns with `BIND`: an assignment replaces what its slot holds. Only assignments of the
group itself and of its optional groups meet the seed, as branches, nested groups and inline
data have rows of their own that are merged with those they are compatible with. An optional
group therefore loses no row, and extends every row that has no term for its assigned
variables. All this holds row by row, for whatever is handed out before an error.
-/

set_option autoImplicit false

namespace RdfStore.Eval

open Query Solution

variable {names : Slots} {assigned : List String} {row : Solution} {env : Env} {seed : Solution}

/-- The row or its extensions keep the row if the extensions do. -/
theorem keepsBut_orKeep {extensions : List Solution}
    (h : ∀ other ∈ extensions, KeepsBut names assigned row other) :
    ∀ other ∈ orKeep row extensions, KeepsBut names assigned row other :=
  of_mem_orKeep (.refl names assigned row) h

/-- Some row is left of every row. -/
theorem orKeep_ne_nil (row : Solution) (extensions : List Solution) :
    orKeep row extensions ≠ [] := by
  cases extensions <;> exact List.cons_ne_nil _ _

/-- The rows of a group keep the seed, but for the variables that the group assigns. -/
theorem groupRows_keepsBut (env : Env) (g : Group) (seed : Solution)
    {rows : Rows ExecutionError Solution} (h : groupRows env g seed = .ok rows) :
    rows.All (KeepsBut env.names (assignedVars g) seed) :=
  (groupRows_grows env g seed h).imp fun _ hrow => hrow.toKeepsBut

/-- What an optional group puts in the place of a row: the rows of its plan from this row, or
the row itself if there are none. -/
def optionalRows (env : Env) (g : Group) (row : Solution) :
    Except ExecutionError (List Solution) :=
  (planRows (groupPlan env g row)).map (orKeep row)

/-- An optional group replaces every row that comes to it in this way. -/
theorem elementPlan_optional (env : Env) (g : Group) (d : Draft) :
    elementPlan env (.optional g) d =
      d.onTop env g.vars fun root => .ok (root.flatMap (optionalRows env g)) := by
  rw [elementPlan]
  rfl

/-- What a plan gives when it is drained keeps the seed, but for the assigned variables. -/
theorem planRows_keepsBut {g : Group} {rows : List Solution}
    (h : planRows (groupPlan env g seed) = .ok rows) :
    ∀ row ∈ rows, KeepsBut env.names (assignedVars g) seed row := by
  rw [planRows_eq, groupPlan_rows] at h
  obtain ⟨handed, hg, hall⟩ := bind_eq_ok h
  exact (groupRows_keepsBut env g seed hg).mem_of_toExcept hall

/-- Every row that can be pulled from the plan of a group has a term wherever the seed has
one, and the same term unless the group assigns the variable. An optional group replaces every row
that comes to it by `optionalRows`, so one that can be planned puts at least one row in the place of
every row, and each of them gives again what that row gives to variables that the group does not
assign. -/
theorem groupPlan_keepsBut (env : Env) (g : Group) (seed : Solution) :
    (∀ c, groupPlan env g seed = .ok c → ∀ count rows s, c.pull count c.start = .ok (rows, s) →
      ∀ row ∈ rows, KeepsBut env.names (assignedVars g) seed row) ∧
    (∀ d, elementPlan env (.optional g) d =
      d.onTop env g.vars fun root => .ok (root.flatMap (optionalRows env g))) ∧
    (IsPlannable env.names g → ∃ rows, optionalRows env g seed = .ok rows ∧ rows ≠ [] ∧
      ∀ row ∈ rows, KeepsBut env.names (assignedVars g) seed row) := by
  refine ⟨fun c hc count rows s hpull => ?_, elementPlan_optional env g, fun hg => ?_⟩
  · have hrows := groupPlan_rows env g seed
    rw [hc] at hrows
    exact c.mem_of_pull (groupRows_keepsBut env g seed hrows.symm) hpull
  · have hdrain := planRows_of_isPlannable hg seed
    refine ⟨orKeep seed (groupSolutions env g seed), ?_, orKeep_ne_nil _ _, ?_⟩
    · unfold optionalRows
      rw [hdrain]
      rfl
    · exact keepsBut_orKeep (planRows_keepsBut hdrain)

/-- The friends of someone, with a number for each. -/
def numberedFriends : Group :=
  .mk [.triples [⟨.var "x", .term (.iri ⟨"http://example.org/knows"⟩), .var "y"⟩],
    .bind (.const (.literal ⟨"2", .typed Vocabulary.xsdInteger⟩)) "n"]

/-- From a row with a person, the group that assigns a number can be planned, and on the refilled
store the row is replaced by rows that keep the person. -/
theorem groupPlan_keepsBut_assigning :
    let env : Env := ⟨Store.refilled, ["x", "y", "n"]⟩
    let seed : Solution := [some (.iri ⟨"http://example.org/bob"⟩), none, none]
    IsPlannable env.names numberedFriends ∧ ∃ rows,
      optionalRows env numberedFriends seed = .ok rows ∧ rows ≠ [] ∧
      ∀ row ∈ rows, KeepsBut env.names ["n"] seed row := by
  intro env seed
  have h : IsPlannable env.names numberedFriends := ⟨by decide, by decide⟩
  exact ⟨h, (groupPlan_keepsBut env numberedFriends seed).2.2 h⟩

/-- A group that gives a number to a variable. -/
def assigning (number : String) : Group :=
  .mk [.bind (.const (.literal ⟨number, .typed Vocabulary.xsdInteger⟩)) "x"]

/-- An optional group that assigns a variable of the row that comes to it does not extend the
row: the term that the variable had is gone. -/
theorem optionalRows_assigning_replaces :
    let one : Solution := [some (.literal ⟨"1", .typed Vocabulary.xsdInteger⟩)]
    let two : Solution := [some (.literal ⟨"2", .typed Vocabulary.xsdInteger⟩)]
    optionalRows ⟨.empty ⟨0, 1⟩, ["x"]⟩ (assigning "2") one = .ok [two] ∧
      ¬one.IsExtendedBy two := by
  intro one two
  have hg : IsPlannable ["x"] (assigning "2") := ⟨by decide, by decide⟩
  have hrows : groupSolutions ⟨.empty ⟨0, 1⟩, ["x"]⟩ (assigning "2") one = [two] := by
    simp [one, two, assigning, groupSolutions, elementSolutions, joinSolutions, conditionsOf,
      assignName, Slots.slot?, assign, valueOf, Valuation.const, Solution.bind]
  refine ⟨?_, fun h => ?_⟩
  · unfold optionalRows
    rw [planRows_of_isPlannable hg, hrows]
    rfl
  · exact absurd (h.get?_eq 0 _ rfl) (by decide)

end RdfStore.Eval
