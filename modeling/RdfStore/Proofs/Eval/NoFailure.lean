import RdfStore.Database.Basic
import RdfStore.Proofs.Eval.QueryMeaning
import RdfStore.Proofs.Eval.Sorting
import RdfStore.Proofs.Query.WellFormed
import RdfStore.Proofs.Store.Refinement

/-!
# Queries never fail

A query that is read can be planned on every store, and so can every group inside it, from any row.
The plans hand out their rows one by one and end after the last one without an error. An expression
without a value is no error of the plan: a condition drops the row, an assignment leaves it as it
is, and a sort key counts as absent.

One thing can keep a query from its answer. Sort keys that form a knot have no order, and a sort of
more than twenty rows that comes upon this stops the program. There is a text whose query is stopped
so on every store; without a knot among the keys the answer is returned.
-/

set_option autoImplicit false

/-!
## Every part of a query can be planned

The slots of a query are those of all variables that it mentions, at any depth. So every group and
every expression of a query that is read has a slot for each of its variables, and none has a label
in its patterns: each of the groups can be planned, whatever row it is planned from.
-/

namespace RdfStore.Query.Part

open Eval

/-- The variables that a part mentions. -/
def mentions : Part → Slots
  | .group g => addGroup [] g
  | .expr e => addExpr [] e

/-- The labels in the patterns of a part. -/
def labels : Part → List String
  | .group g => g.labels
  | .expr e => e.labels

/-- A part that mentions variables with slots only and has no labels in its patterns. -/
structure IsPlannable (names : Slots) (p : Part) : Prop where
  covered : ∀ v ∈ p.mentions, v ∈ names
  unlabelled : p.labels = []

/-! ## Members of lists -/

/-- The variables of an element are among those of all elements. -/
theorem addElement_subset {elements : List Element} {element : Element} (h : element ∈ elements)
    {v : String} (hv : v ∈ addElement [] element) : v ∈ addElements [] elements := by
  induction elements with
  | nil => exact absurd h List.not_mem_nil
  | cons first rest ih =>
    rw [addElements, mem_addElements rest]
    rcases List.mem_cons.mp h with rfl | h
    · exact Or.inl hv
    · exact Or.inr (ih h)

/-- The variables of a group are among those of all groups. -/
theorem addGroup_subset {groups : List Group} {g : Group} (h : g ∈ groups) {v : String}
    (hv : v ∈ addGroup [] g) : v ∈ addGroups [] groups := by
  induction groups with
  | nil => exact absurd h List.not_mem_nil
  | cons first rest ih =>
    rw [addGroups, mem_addGroups rest]
    rcases List.mem_cons.mp h with rfl | h
    · exact Or.inl hv
    · exact Or.inr (ih h)

/-- The variables of an expression are among those of all expressions. -/
theorem addExpr_subset {es : List Expr} {e : Expr} (h : e ∈ es) {v : String}
    (hv : v ∈ addExpr [] e) : v ∈ addExprs [] es := by
  induction es with
  | nil => exact absurd h List.not_mem_nil
  | cons first rest ih =>
    rw [addExprs, mem_addExprs rest]
    rcases List.mem_cons.mp h with rfl | h
    · exact Or.inl hv
    · exact Or.inr (ih h)

/-- The labels of elements are those of each of them. -/
theorem elementLabels_eq_flatMap (elements : List Element) :
    elementLabels elements = elements.flatMap Element.labels := by
  induction elements with
  | nil => rfl
  | cons element rest ih => rw [elementLabels, ih, List.flatMap_cons]

/-- The labels of branches are those of each of them. -/
theorem branchLabels_eq_flatMap (groups : List Group) :
    branchLabels groups = groups.flatMap Group.labels := by
  induction groups with
  | nil => rfl
  | cons g rest ih => rw [branchLabels, ih, List.flatMap_cons]

/-- The labels of expressions are those of each of them. -/
theorem exprLabels_eq_flatMap (es : List Expr) : exprLabels es = es.flatMap Expr.labels := by
  induction es with
  | nil => rfl
  | cons e rest ih => rw [exprLabels, ih, List.flatMap_cons]

/-! ## Inside a part -/

variable {p q : Part}

/-- A part of an element mentions variables of the element only. -/
theorem mentions_element {element : Element} (hp : p ∈ element.parts) {v : String}
    (hv : v ∈ p.mentions) : v ∈ addElement [] element := by
  cases element with
  | triples _ | data _ => exact absurd hp List.not_mem_nil
  | filter e | «optional» g | group g | minus g =>
    rw [List.mem_singleton.mp hp] at hv
    exact hv
  | bind e name =>
    rw [List.mem_singleton.mp hp] at hv
    exact mem_insertName.mpr (Or.inl hv)
  | union branches =>
    obtain ⟨g, hg, rfl⟩ := List.mem_map.mp hp
    exact addGroup_subset hg hv

/-- A part of an element without labels has none. -/
theorem labels_element {element : Element} (hp : p ∈ element.parts) (h : element.labels = []) :
    p.labels = [] := by
  cases element with
  | triples _ | data _ => exact absurd hp List.not_mem_nil
  | filter e | bind e name | «optional» g | group g | minus g =>
    rw [List.mem_singleton.mp hp]
    exact h
  | union branches =>
    obtain ⟨g, hg, rfl⟩ := List.mem_map.mp hp
    rw [Element.labels, branchLabels_eq_flatMap] at h
    exact List.flatMap_eq_nil_iff.mp h g hg

/-- What is mentioned inside a part is mentioned by the part. -/
theorem mentions_inside (hq : q ∈ p.inside) {v : String} (hv : v ∈ q.mentions) :
    v ∈ p.mentions := by
  match p with
  | .group (.mk elements) =>
    obtain ⟨element, helement, hq⟩ := List.mem_flatMap.mp hq
    exact addElement_subset helement (mentions_element hq hv)
  | .expr (.var _) | .expr (.const _) => exact absurd hq List.not_mem_nil
  | .expr (.binary _ left right) =>
    rcases List.mem_cons.mp hq with rfl | hq
    · exact (mem_addExpr right).mpr (Or.inl hv)
    · rw [List.mem_singleton.mp hq] at hv
      exact (mem_addExpr right).mpr (Or.inr hv)
  | .expr (.unary _ operand) =>
    rw [List.mem_singleton.mp hq] at hv
    exact hv
  | .expr (.call _ args) =>
    obtain ⟨e, he, rfl⟩ := List.mem_map.mp hq
    exact addExpr_subset he hv
  | .expr (.member _ operand items) =>
    rcases List.mem_cons.mp hq with rfl | hq
    · exact (mem_addExprs items).mpr (Or.inl hv)
    · obtain ⟨e, he, rfl⟩ := List.mem_map.mp hq
      exact (mem_addExprs items).mpr (Or.inr (addExpr_subset he hv))
  | .expr (.exists _ g) =>
    rw [List.mem_singleton.mp hq] at hv
    exact hv

/-- A part without labels has none inside. -/
theorem labels_inside (hq : q ∈ p.inside) (h : p.labels = []) : q.labels = [] := by
  match p with
  | .group (.mk elements) =>
    obtain ⟨element, helement, hq⟩ := List.mem_flatMap.mp hq
    have helements : elements.flatMap Element.labels = [] :=
      (elementLabels_eq_flatMap elements).symm.trans h
    exact labels_element hq (List.flatMap_eq_nil_iff.mp helements element helement)
  | .expr (.var _) | .expr (.const _) => exact absurd hq List.not_mem_nil
  | .expr (.binary _ left right) =>
    obtain ⟨hleft, hright⟩ := List.append_eq_nil_iff.mp h
    rcases List.mem_cons.mp hq with rfl | hq
    · exact hleft
    · rw [List.mem_singleton.mp hq]
      exact hright
  | .expr (.unary _ operand) =>
    rw [List.mem_singleton.mp hq]
    exact h
  | .expr (.call _ args) =>
    obtain ⟨e, he, rfl⟩ := List.mem_map.mp hq
    have hargs : args.flatMap Expr.labels = [] := (exprLabels_eq_flatMap args).symm.trans h
    exact List.flatMap_eq_nil_iff.mp hargs e he
  | .expr (.member _ operand items) =>
    obtain ⟨hoperand, hitems⟩ := List.append_eq_nil_iff.mp h
    rcases List.mem_cons.mp hq with rfl | hq
    · exact hoperand
    · obtain ⟨e, he, rfl⟩ := List.mem_map.mp hq
      rw [exprLabels_eq_flatMap] at hitems
      exact List.flatMap_eq_nil_iff.mp hitems e he
  | .expr (.exists _ g) =>
    rw [List.mem_singleton.mp hq]
    exact h

/-- What is inside a part that can be planned can be planned. -/
theorem IsPlannable.inside {names : Slots} (h : p.IsPlannable names) (hq : q ∈ p.inside) :
    q.IsPlannable names :=
  ⟨fun v hv => h.covered v (mentions_inside hq hv), labels_inside hq h.unlabelled⟩

/-- A part that is a group can be planned as a group. -/
theorem IsPlannable.group {names : Slots} {g : Group} (h : (Part.group g).IsPlannable names) :
    Eval.IsPlannable names g := ⟨h.covered, h.unlabelled⟩

/-- Every part of a query that is read can be planned over the slots of the query. -/
theorem isPlannable_of_read {text : String} {q : Query} (hread : read text = .ok q)
    (h : q.HasPart p) : p.IsPlannable (slots q) := by
  have hrun : IsRunnable (slots q) q := isRunnable_slots (read_placed hread)
  refine h.keeps (fun root hroot => ?_) fun _ _ hb ha => ha.inside hb
  rcases List.mem_append.mp hroot with hroot | hroot
  · rcases List.mem_cons.mp hroot with rfl | hroot
    · exact ⟨hrun.pattern.covered, hrun.pattern.unlabelled⟩
    · obtain ⟨e, he, rfl⟩ := List.mem_map.mp hroot
      cases hform : q.form with
      | select duplicates projection =>
        rw [hform] at he
        cases projection with
        | all => exact absurd he List.not_mem_nil
        | items items =>
          obtain ⟨item, hitem, hvalue⟩ := List.mem_filterMap.mp he
          obtain ⟨hcovered, hlabels⟩ := hrun.items duplicates items hform item hitem
          cases item with
          | var name => cases hvalue
          | expr value name =>
            cases hvalue
            exact ⟨fun v hv => hcovered v (mem_insertName.mpr (Or.inl hv)), hlabels⟩
      | ask | construct template =>
        rw [hform] at he
        exact absurd he List.not_mem_nil
  · obtain ⟨condition, hc, rfl⟩ := List.mem_map.mp hroot
    obtain ⟨hcovered, hlabels⟩ := hrun.keys condition hc
    exact ⟨hcovered, hlabels⟩

end RdfStore.Query.Part

namespace RdfStore.Eval

open Query

/-! ## Pulling rows -/

namespace Cursor

variable {α : Type}

/-- However many rows are pulled, there is no error: the rows of a list come in their order, and
after the last one there is none. -/
def EndsAfter (c : Cursor ExecutionError α) (rows : List α) : Prop :=
  ∀ count, ∃ s t, c.pull count c.start = .ok (rows.take count, s) ∧
    c.next s = .ok (rows[count]?, t)

variable {c : Cursor ExecutionError α} {s : c.State} {rows : List α}

/-- A pull hands out the first of the rows that remain and leaves the others. -/
theorem next_of_remaining (h : c.remaining s = .ofList rows) :
    ∃ t, c.next s = .ok (rows.head?, t) ∧ c.remaining t = .ofList rows.tail := by
  have hnext := c.next_eq s
  rw [h] at hnext
  have hfirst : (Rows.ofList rows : Rows ExecutionError α).next =
      .ok (rows.head?, .ofList rows.tail) := by
    cases rows <;> rfl
  rw [hfirst] at hnext
  obtain ⟨⟨row, t⟩, hpull, hpair⟩ := map_eq_ok hnext
  obtain ⟨rfl, ht⟩ := Prod.mk.inj hpair
  exact ⟨t, hpull, ht⟩

/-- Several pulls hand out the first rows, and the next one the row behind them. -/
theorem pull_of_remaining (h : c.remaining s = .ofList rows) (count : Nat) :
    ∃ u t, c.pull count s = .ok (rows.take count, u) ∧ c.next u = .ok (rows[count]?, t) := by
  induction count generalizing s rows with
  | zero =>
    obtain ⟨t, ht, -⟩ := next_of_remaining h
    rw [List.head?_eq_getElem?] at ht
    exact ⟨s, t, rfl, ht⟩
  | succ count ih =>
    obtain ⟨t, ht, hrest⟩ := next_of_remaining h
    unfold pull
    rw [ht]
    cases rows with
    | nil =>
      -- there was no row, and there will be none
      obtain ⟨u, hu, -⟩ := next_of_remaining hrest
      exact ⟨t, u, rfl, hu⟩
    | cons row rows =>
      obtain ⟨u, v, hpull, hnext⟩ := ih hrest
      refine ⟨u, v, ?_, hnext⟩
      show (c.pull count t).map _ = _
      rw [hpull]
      rfl

/-- A cursor that lists rows hands them out and ends. -/
theorem Lists.endsAfter (h : c.Lists rows) : c.EndsAfter rows := pull_of_remaining h

end Cursor

/-! ## Expressions without a value -/

/-- What becomes of an expression, with or without a value at each row, where a query can use it:
conditions, assignments and sorting without a knot never fail. Without a value the condition drops
the row and the assignment keeps it. -/
structure IsAbsorbed (value : Valuation) : Prop where
  filter : ∀ (c : SolutionCursor) rows, c.Lists rows →
    (c.filter value.holds).EndsAfter (rows.filter value.holds)
  assign : ∀ (c : SolutionCursor) rows slot, c.Lists rows →
    (c.map (assign slot value)).EndsAfter (rows.map (assign slot value))
  sort : ∀ (c : SolutionCursor) rows keys ascending, c.Lists rows →
    HaveNoKnot (⟨ascending, value⟩ :: keys) rows →
      ∃ out, sortRows? (⟨ascending, value⟩ :: keys) rows = some out ∧
        (c.whole (sortRows (⟨ascending, value⟩ :: keys))).EndsAfter out
  dropped : ∀ row, value row = none → value.holds row = false
  kept : ∀ row slot, value row = none → Eval.assign slot value row = row

/-- A value that may be missing never stops a cursor. -/
theorem isAbsorbed (value : Valuation) : IsAbsorbed value where
  filter c rows h := by
    have hfilter : (c.filter value.holds).Lists (rows.filter value.holds) := by
      show c.rows.filter value.holds = _
      rw [h]
      exact filter_ofList value.holds rows
    exact hfilter.endsAfter
  assign c rows slot h := (h.map (Eval.assign slot value)).endsAfter
  sort c rows keys ascending h hnone := by
    obtain ⟨out, hout, -⟩ := exists_sortRows? hnone
    have hwhole := h.whole (sortRows (⟨ascending, value⟩ :: keys))
    unfold sortRows at hwhole ⊢
    rw [hout] at hwhole
    exact ⟨out, hout, hwhole.endsAfter⟩
  dropped row h := by
    unfold Valuation.holds Valuation.truth?
    rw [h]
    rfl
  kept row slot h := by
    unfold Eval.assign
    rw [h]

/-! ## Queries -/

/-- An `EXISTS` over a plannable group has a value at every row. -/
theorem isSome_exists {env : Env} {g : Group} (h : IsPlannable env.names g) (negated : Bool)
    (row : Solution) : ((planValue env (.exists negated g)).down row).isSome = true := by
  obtain ⟨c, hc, hrows⟩ := groupPlan_lists h row
  have hfound : (groupPlan env g row).bind Cursor.isInhabited =
      .ok !(groupSolutions env g row).isEmpty := by
    rw [hc]
    exact hrows.isInhabited_eq
  rw [planValue]
  show (((groupPlan env g row).bind Cursor.isInhabited).toOption.map fun found =>
    Truth.toTerm (found != negated)).isSome = true
  rw [hfound]
  rfl

/-- A query sorts more than twenty rows, and three of them have a knot in one of its keys. -/
structure SortsKnot (env : Env) (q : Query) : Prop where
  sorting : isSorting q = true
  many : 20 < (unsortedSolutions env q).length
  knot : ∃ key ∈ sortKeys env q.modifiers, ∃ a ∈ unsortedSolutions env q,
    ∃ b ∈ unsortedSolutions env q, ∃ c ∈ unsortedSolutions env q,
      IsKnot (key.value a) (key.value b) (key.value c)

/-- A query stops the program only if it sorts a knot. -/
theorem sortsKnot_of_stops {s : Store} {q : Query} (hplaced : misplaced q = [])
    (h : stops s q = true) : SortsKnot (envOf s q) q := by
  have hrun : IsRunnable (envOf s q).names q := isRunnable_slots hplaced
  obtain ⟨input, hinput, hlists⟩ := planUnsorted_lists hrun
  have hrows : (planUnsorted (envOf s q) q).bind Cursor.toList =
      .ok (unsortedSolutions (envOf s q) q) := by
    rw [hinput]
    exact hlists.toList_eq
  obtain ⟨root, hplan, -⟩ := plan_lists s hplaced
  unfold stops at h
  simp only [hplan, hrows, Bool.and_eq_true] at h
  obtain ⟨hsorting, hnone⟩ := h
  have hnone := Option.isNone_iff_eq_none.mp hnone
  refine ⟨hsorting, length_of_sortRows?_eq_none hnone, Classical.byContradiction fun hknot => ?_⟩
  have hunknotted : HaveNoKnot (sortKeys (envOf s q) q.modifiers)
      (unsortedSolutions (envOf s q) q) :=
    fun key hkey a ha b hb c hc habc => hknot ⟨key, hkey, a, ha, b, hb, c, hc, habc⟩
  obtain ⟨out, hout, -⟩ := exists_sortRows? hunknotted
  rw [hnone] at hout
  cases hout

/-- On every store a query that is read has a plan and an answer, also when it is asked of a
database. Running it returns this answer, and its plan hands out its rows and ends without an error,
unless its sort stops the program, which takes more than twenty rows and a knot among the keys of
three of them. The plan of every group inside it can be made from every row, hands out its rows and
ends without an error. Every expression is absorbed by what it stands in, and `EXISTS` always has a
value. -/
theorem run_returns {text : String} {q : Query} (hread : Query.read text = .ok q) (s : Store) :
    (∃ p answer, plan (envOf s q) q = .ok p ∧ execute s q = .ok answer ∧
      (run s q = .returned (.ok answer) ∧ (∃ rows, p.root.EndsAfter rows) ∨
        run s q = .stopped ∧ SortsKnot (envOf s q) q) ∧
      ∀ db : Database, db.store = s →
        db.answer text = .ok answer ∧ (db.stops text = true ↔ run s q = .stopped)) ∧
    (∀ g, q.HasPart (.group g) → ∀ seed, ∃ c rows,
      groupPlan (envOf s q) g seed = .ok c ∧ c.EndsAfter rows) ∧
    (∀ e, q.HasPart (.expr e) → IsAbsorbed (planValue (envOf s q) e).down) ∧
    (∀ negated g, q.HasPart (.expr (.exists negated g)) → ∀ row,
      ((planValue (envOf s q) (.exists negated g)).down row).isSome = true) := by
  have hplaced := read_placed hread
  have hexecute := execute_eq s hplaced
  have hplannable : ∀ g, q.HasPart (.group g) → IsPlannable (envOf s q).names g :=
    fun g hg => (Part.isPlannable_of_read hread hg).group
  obtain ⟨root, hplan, hlists⟩ := plan_lists s hplaced
  refine ⟨⟨_, _, hplan, hexecute, ?_, fun db hdb => ⟨?_, ?_⟩⟩, fun g hg seed => ?_,
    fun e _ => isAbsorbed _, fun negated g he row => ?_⟩
  · unfold run
    cases hstops : stops s q with
    | false =>
      refine .inl ⟨?_, _, hlists.endsAfter⟩
      rw [hexecute]
      rfl
    | true => exact .inr ⟨rfl, sortsKnot_of_stops hplaced hstops⟩
  · unfold Database.answer
    rw [hread, hdb]
    show (execute s q).mapError _ = _
    rw [hexecute]
    rfl
  · unfold Database.stops run
    rw [hread, hdb]
    show stops s q = true ↔ (if stops s q then Ending.stopped else _) = .stopped
    split
    · rename_i hstops
      exact iff_of_true hstops rfl
    · rename_i hstops
      exact iff_of_false hstops nofun
  · obtain ⟨c, hc, hrows⟩ := groupPlan_lists (hplannable g hg) seed
    exact ⟨c, _, hc, hrows.endsAfter⟩
  · exact isSome_exists (hplannable g (he.inside List.mem_cons_self)) negated row

/-- A text with an integer, a byte and a decimal that are in a knot. -/
def fewKnotted : String :=
  "SELECT * \x7b VALUES ?v \x7b 9007199254740992.0 9007199254740992 " ++
    "'9007199254740993'^^<http://www.w3.org/2001/XMLSchema#byte> \x7d \x7d ORDER BY ?v"

/-- The text with one of each is answered on the refilled store, and its pattern can be planned from
a row that another group would plan it from. Three rows are sorted and returned in spite of a knot
among them. -/
theorem run_returns_mixture :
    (∃ q, Query.read mixture = .ok q ∧ (∃ answer, execute Store.refilled q = .ok answer) ∧
      ∃ c rows, groupPlan (envOf Store.refilled q) q.pattern
        [some (.iri ⟨"http://example.org/bob"⟩)] = .ok c ∧ c.EndsAfter rows) ∧
    ∃ q answer, Query.read fewKnotted = .ok q ∧
      run Store.refilled q = .returned (.ok answer) := by
  constructor
  · obtain ⟨q, hread⟩ := exists_read_of_isAccepted isAccepted_mixture
    obtain ⟨⟨p, answer, -, hanswer, -⟩, hgroups, -⟩ := run_returns hread Store.refilled
    exact ⟨q, hread, ⟨answer, hanswer⟩, hgroups _ hasPart_pattern _⟩
  · have haccepted : isAccepted fewKnotted = true := by decide +kernel
    obtain ⟨q, hread⟩ := exists_read_of_isAccepted haccepted
    obtain ⟨⟨p, answer, -, -, hrun, hdb⟩, -⟩ := run_returns hread Store.refilled
    have hends : (⟨Store.refilled, {}⟩ : Database).stops fewKnotted = false := by decide +kernel
    have hstopped := (hdb ⟨Store.refilled, {}⟩ rfl).2
    rw [hends] at hstopped
    exact ⟨q, answer, hread, (hrun.resolve_right fun h => Bool.noConfusion (hstopped.mpr h.1)).1⟩

/-- A text with ten integers, every other one a byte, and eleven decimals, which are in a knot. -/
def knotted : String :=
  "SELECT * \x7b " ++
    "\x7b VALUES ?n \x7b 1 1 1 1 1 \x7d VALUES ?v \x7b " ++
      "'9007199254740993'^^<http://www.w3.org/2001/XMLSchema#byte> 9007199254740992 \x7d \x7d " ++
    "UNION \x7b VALUES ?n \x7b 1 1 1 1 1 1 1 1 1 1 1 \x7d " ++
      "VALUES ?v \x7b 9007199254740992.0 \x7d \x7d \x7d ORDER BY ?v"

/-- The text is accepted, and running its query stops the program: no answer is returned. -/
theorem run_knotted :
    ∃ q, Query.read knotted = .ok q ∧ run (.empty ⟨0, 1⟩) q = .stopped := by
  have hstops : (⟨.empty ⟨0, 1⟩, {}⟩ : Database).stops knotted = true := by decide +kernel
  unfold Database.stops at hstops
  cases hread : Query.read knotted with
  | error e =>
    rw [hread] at hstops
    cases hstops
  | ok q =>
    rw [hread] at hstops
    exact ⟨q, rfl, if_pos hstops⟩

end RdfStore.Eval
