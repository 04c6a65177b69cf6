import RdfStore.Eval.Answer
import RdfStore.Proofs.Eval.GroupMeaning

/-!
# What queries answer

The answer of a query from plain lists: the solutions of its pattern joined with its data,
with the computed columns, sorted, projected, freed of repetitions and cut. Running a query
whose patterns have no blank nodes of the template kind never fails and gives this answer,
because the variables of such a query have slots wherever they stand.
-/

set_option autoImplicit false

namespace RdfStore.Eval

open Query

/-! ## The meaning of a query -/

/-- The solutions of the pattern of a query joined with its data. -/
def querySolutions (env : Env) (q : Query) : List Solution :=
  let rows := groupSolutions env q.pattern (.unbound env.names.length)
  match q.data with
  | some block => rows.flatMap (joinTable (dataSolutions env.names block))
  | none => rows

/-- The solutions with the computed columns. -/
def itemSolutions (env : Env) : List SelectItem → List Solution → List Solution
  | [], rows => rows
  | .var _ :: rest, rows => itemSolutions env rest rows
  | .expr value name :: rest, rows =>
    itemSolutions env rest (rows.map (assignName env.names name (valueOf env value)))

/-- The solutions of a query with its computed columns, before they are sorted. -/
def unsortedSolutions (env : Env) (q : Query) : List Solution :=
  itemSolutions env q.form.items (querySolutions env q)

/-- The values to sort by. -/
def keysOf (env : Env) (m : Modifiers) : List SortKey :=
  m.orderBy.map fun condition => ⟨condition.ascending, valueOf env condition.key⟩

/-- The solutions sorted if there is anything to sort by. -/
def sortedSolutions (env : Env) (m : Modifiers) (rows : List Solution) : List Solution :=
  if m.orderBy.isEmpty then rows else sortRows (keysOf env m) rows

/-- The slice of a list that a query asks for. -/
def slicedList {α : Type} (m : Modifiers) (rows : List α) : List α :=
  let rest := rows.drop m.offset
  match m.limit with
  | some count => rest.take count
  | none => rest

/-- The columns that a projection lists. -/
def Projection.itemsOf : Projection → List SelectItem
  | .all => []
  | .items items => items

/-- The slots of variables that have one. -/
def slotsIn (names : Slots) (more : List String) : List Nat := more.filterMap names.slot?

/-- The rows of a table, over the slots of its columns. -/
def tableSolutions (env : Env) (m : Modifiers) (duplicates : Duplicates) (slots : List Nat)
    (rows : List Solution) : List Solution :=
  let projected := (sortedSolutions env m rows).map (Solution.project slots)
  slicedList m (if duplicates = .keep then projected else projected.eraseDups)

/-- The rows of the plan of a query. -/
def planSolutions (env : Env) (q : Query) : List Solution :=
  match q.form with
  | .select duplicates projection =>
    tableSolutions env q.modifiers duplicates (slotsIn env.names (columns q))
      (itemSolutions env (Projection.itemsOf projection) (querySolutions env q))
  | .ask => querySolutions env q
  | .construct _ =>
    slicedList q.modifiers (sortedSolutions env q.modifiers (querySolutions env q))

/-- The answer of a query. -/
def answerOf (env : Env) (q : Query) : Answer :=
  match q.form with
  | .select duplicates projection =>
    let slots := slotsIn env.names (columns q)
    let rows := itemSolutions env (Projection.itemsOf projection) (querySolutions env q)
    .solutions (columns q)
      ((tableSolutions env q.modifiers duplicates slots rows).map fun row => slots.map row.get?)
  | .ask => .boolean !(querySolutions env q).isEmpty
  | .construct template =>
    .graph (construct env template
      (slicedList q.modifiers (sortedSolutions env q.modifiers (querySolutions env q))))

/-! ## Cursors over lists -/

namespace Rows

variable {ε α : Type}

/-- The rows of a list without the first ones are those of the shorter list. -/
theorem drop_ofList (n : Nat) (list : List α) :
    (ofList list : Rows ε α).drop n = ofList (list.drop n) := by
  induction list generalizing n with
  | nil => cases n <;> rfl
  | cons a rest ih =>
    cases n with
    | zero => rfl
    | succ n => exact ih n

/-- The first rows of a list are those of its beginning. -/
theorem take_ofList (n : Nat) (list : List α) :
    (ofList list : Rows ε α).take n = ofList (list.take n) := by
  induction list generalizing n with
  | nil => cases n <;> rfl
  | cons a rest ih =>
    cases n with
    | zero => rfl
    | succ n =>
      show row a ((ofList rest).take n) = row a (ofList (rest.take n))
      rw [ih]

/-- The new rows of a list are the first of each kind among those that were not seen. -/
theorem unseen_ofList [DecidableEq α] [BEq α] [LawfulBEq α] (seen list : List α) :
    (ofList list : Rows ε α).unseen seen =
      ofList (list.filter fun a => decide (a ∉ seen)).eraseDups := by
  induction list generalizing seen with
  | nil => rfl
  | cons a rest ih =>
    rw [ofList, unseen, List.filter_cons]
    by_cases ha : a ∈ seen
    · rw [if_pos ha, ih, if_neg (by simpa using ha)]
    · rw [if_neg ha, ih, if_pos (by simpa using ha), List.eraseDups_cons, List.filter_filter,
        ofList]
      congr 4
      funext b
      by_cases hb : b = a <;> simp [hb]

end Rows

/-- A cursor hands out the rows of a list. -/
def Cursor.Lists {α : Type} (c : Cursor ExecutionError α) (list : List α) : Prop :=
  c.rows = .ofList list

namespace Cursor.Lists

variable {c : SolutionCursor} {list : List Solution}

/-- What a cursor lists is what it gives when it is read to its end. -/
theorem toList_eq (h : c.Lists list) : c.toList = .ok list := by
  rw [c.toList_eq_rows, h]
  exact Rows.toExcept_ofList list

/-- A cursor has a row unless it lists nothing. -/
theorem isInhabited_eq (h : c.Lists list) : c.isInhabited = .ok !list.isEmpty := by
  rw [c.isInhabited_eq_rows, h]
  exact isInhabited_ofList list

/-- Mapping the rows of a cursor maps what it lists. -/
theorem map (h : c.Lists list) (f : Solution → Solution) : (c.map f).Lists (list.map f) := by
  show c.rows.map f = _
  rw [h]
  exact map_ofList f list

/-- Joining the rows of a cursor with a table joins what it lists. -/
theorem joinTable (h : c.Lists list) (table : List Solution) :
    (c.flatMap fun row => .ok (Eval.joinTable table row)).Lists
      (list.flatMap (Eval.joinTable table)) := by
  show c.rows.flatMap _ = _
  rw [h]
  exact flatMap_ofList (fun row => rfl) list

/-- Taking the rows of a cursor as a whole takes what it lists as a whole. -/
theorem whole (h : c.Lists list) (f : List Solution → List Solution) :
    (c.whole f).Lists (f list) := by
  show Rows.ofExcept (c.rows.toExcept.map f) = _
  rw [h, Rows.toExcept_ofList]
  rfl

/-- Dropping the repetitions of a cursor drops those of what it lists. -/
theorem distinct (h : c.Lists list) : c.distinct.Lists list.eraseDups := by
  show c.rows.unseen [] = _
  rw [h, Rows.unseen_ofList]
  have hall : (list.filter fun a => decide (a ∉ ([] : List Solution))) = list :=
    List.filter_eq_self.mpr fun _ _ => decide_eq_true List.not_mem_nil
  rw [hall]

/-- A cursor whose repetitions are dropped unless they are kept lists what is left. -/
theorem deduplicated (h : c.Lists list) (duplicates : Duplicates) :
    (if duplicates = .keep then c else c.distinct).Lists
      (if duplicates = .keep then list else list.eraseDups) := by
  split
  · exact h
  · exact h.distinct

/-- Cutting a cursor cuts what it lists. -/
theorem sliced (h : c.Lists list) (m : Modifiers) :
    (sliced m c).Lists (slicedList m list) := by
  have hdrop : (if m.offset = 0 then c else c.drop m.offset).Lists (list.drop m.offset) := by
    split
    · rename_i hzero
      rw [hzero]
      exact h
    · show c.rows.drop m.offset = _
      rw [h]
      exact Rows.drop_ofList m.offset list
  unfold Eval.sliced slicedList
  dsimp only
  cases m.limit with
  | none => exact hdrop
  | some count =>
    show (Cursor.rows _).take count = _
    rw [hdrop]
    exact Rows.take_ofList count _

end Cursor.Lists

/-! ## Slots of the parts of a query -/

mutual

/-- What a group can bind, it mentions. -/
theorem mem_groupVars {names more : List String} (g : Group) {v : String}
    (h : v ∈ g.addVars names) : v ∈ names ∨ v ∈ addGroup more g := by
  match g with
  | .mk elements => exact mem_elementVars elements h

/-- What elements can bind, they mention. -/
theorem mem_elementVars {names more : List String} (elements : List Element) {v : String}
    (h : v ∈ addElementVars names elements) : v ∈ names ∨ v ∈ addElements more elements := by
  match elements with
  | [] => exact Or.inl h
  | element :: rest =>
    rcases @mem_elementVars _ (addElement more element) rest _ h with h | h
    · rcases @mem_oneElementVars _ more element _ h with h | h
      · exact Or.inl h
      · exact Or.inr ((mem_addElements rest).mpr (Or.inl h))
    · exact Or.inr h

/-- What an element can bind, it mentions. -/
theorem mem_oneElementVars {names more : List String} (element : Element) {v : String}
    (h : v ∈ element.addVars names) : v ∈ names ∨ v ∈ addElement more element := by
  match element with
  | .triples patterns =>
    exact (mem_insertNames.mp h).imp_right fun h => mem_insertNames.mpr (Or.inr h)
  | .filter _ | .minus _ => exact Or.inl h
  | .optional group | .group group => exact mem_groupVars group h
  | .union branches => exact mem_branchVars branches h
  | .bind value name =>
    exact (mem_insertName.mp h).imp_right fun h => mem_insertName.mpr (Or.inr h)
  | .data block =>
    exact (mem_insertNames.mp h).imp_right fun h => mem_insertNames.mpr (Or.inr h)

/-- What branches can bind, they mention. -/
theorem mem_branchVars {names more : List String} (branches : List Group) {v : String}
    (h : v ∈ addBranchVars names branches) : v ∈ names ∨ v ∈ addGroups more branches := by
  match branches with
  | [] => exact Or.inl h
  | branch :: rest =>
    rcases @mem_branchVars _ (addGroup more branch) rest _ h with h | h
    · rcases @mem_groupVars _ more branch _ h with h | h
      · exact Or.inl h
      · exact Or.inr ((mem_addGroups rest).mpr (Or.inl h))
    · exact Or.inr h

end

/-- The sort keys add variables and lose none. -/
theorem mem_addKeys {names : Slots} {keys : List OrderCondition} {v : String} :
    v ∈ keys.foldl (fun names condition => addExpr names condition.key) names ↔
      v ∈ names ∨ ∃ condition ∈ keys, v ∈ addExpr [] condition.key := by
  induction keys generalizing names with
  | nil => simp only [List.foldl_nil, List.not_mem_nil, false_and, exists_false, or_false]
  | cons key rest ih =>
    rw [List.foldl_cons, ih, mem_addExpr key.key, or_assoc]
    simp only [List.mem_cons, exists_eq_or_imp]

/-- A column adds its own variables, whatever was there before. -/
theorem mem_addItem {names : Slots} (item : SelectItem) {v : String} :
    v ∈ addItem names item ↔ v ∈ names ∨ v ∈ addItem [] item := by
  cases item with
  | var name => simp only [addItem, mem_insertName, List.not_mem_nil, false_or]
  | expr value name =>
    simp only [addItem, mem_insertName]
    rw [mem_addExpr value, or_assoc]

/-- The columns add variables and lose none. -/
theorem mem_addItems {names : Slots} {items : List SelectItem} {v : String} :
    v ∈ items.foldl addItem names ↔ v ∈ names ∨ ∃ item ∈ items, v ∈ addItem [] item := by
  induction items generalizing names with
  | nil => simp only [List.foldl_nil, List.not_mem_nil, false_and, exists_false, or_false]
  | cons item rest ih =>
    rw [List.foldl_cons, ih, mem_addItem item, or_assoc]
    simp only [List.mem_cons, exists_eq_or_imp]

/-- The form of a query loses no variable. -/
theorem mem_addForm {names : Slots} (form : Form) {v : String} (h : v ∈ names) :
    v ∈ addForm names form := by
  unfold addForm
  split
  · exact mem_addItems.mpr (Or.inl h)
  · exact mem_insertNames.mpr (Or.inl h)
  · exact h

/-- A query whose patterns have no labels, over names that have a slot for everything it
mentions. -/
structure IsRunnable (names : Slots) (q : Query) : Prop where
  pattern : IsPlannable names q.pattern
  data : ∀ block, q.data = some block → ∀ v ∈ block.vars, v ∈ names
  items : ∀ duplicates items, q.form = .select duplicates (.items items) → ∀ item ∈ items,
    (∀ v ∈ addItem [] item, v ∈ names) ∧ item.labels = []
  keys : ∀ condition ∈ q.modifiers.orderBy, (∀ v ∈ addExpr [] condition.key, v ∈ names) ∧
    condition.key.labels = []

/-- A query without misplaced labels can be run over its own slots. -/
theorem isRunnable_slots {q : Query} (h : misplaced q = []) : IsRunnable (slots q) q := by
  unfold misplaced at h
  dsimp only at h
  obtain ⟨h, hkeys⟩ := List.append_eq_nil_iff.mp h
  obtain ⟨hpattern, hitems⟩ := List.append_eq_nil_iff.mp h
  have hform : ∀ v, v ∈ addForm (insertNames (addGroup [] q.pattern)
      (q.data.elim [] DataBlock.vars)) q.form → v ∈ slots q := fun v hv =>
    mem_addKeys.mpr (Or.inl hv)
  refine ⟨⟨fun v hv => ?_, hpattern⟩, fun block hblock v hv => ?_, ?_, fun condition hc => ?_⟩
  · exact hform v (mem_addForm _ (mem_insertNames.mpr (Or.inl hv)))
  · refine hform v (mem_addForm _ (mem_insertNames.mpr (Or.inr ?_)))
    rw [hblock]
    exact hv
  · intro duplicates items hselect item hitem
    rw [hselect] at hform hitems
    refine ⟨fun v hv => ?_, List.flatMap_eq_nil_iff.mp hitems item hitem⟩
    exact hform v (mem_addItems.mpr (Or.inr ⟨item, hitem, hv⟩))
  · refine ⟨fun v hv => mem_addKeys.mpr (Or.inr ⟨condition, hc, hv⟩), ?_⟩
    exact List.flatMap_eq_nil_iff.mp hkeys condition hc

/-- The columns of a table have slots. -/
theorem columns_subset_slots (q : Query) : ∀ v ∈ outputColumns q, v ∈ slots q := by
  intro v hv
  refine mem_addKeys.mpr (Or.inl ?_)
  cases hform : q.form with
  | select duplicates projection =>
    have hcolumns : v ∈ columns q := by
      unfold outputColumns at hv
      rw [hform] at hv
      exact hv
    unfold columns at hcolumns
    rw [hform] at hcolumns
    cases projection with
    | all =>
      obtain ⟨hmem, -⟩ := List.mem_filter.mp hcolumns
      rcases mem_insertNames.mp hmem with hmem | hmem
      · refine mem_insertNames.mpr (Or.inl ?_)
        exact (mem_groupVars q.pattern hmem).resolve_left List.not_mem_nil
      · exact mem_insertNames.mpr (Or.inr hmem)
    | items items =>
      obtain ⟨item, hitem, rfl⟩ := List.mem_map.mp hcolumns
      refine mem_addItems.mpr (Or.inr ⟨item, hitem, ?_⟩)
      cases item <;> exact mem_insertName.mpr (Or.inr rfl)
  | ask | construct =>
    unfold outputColumns at hv
    rw [hform] at hv
    exact absurd hv List.not_mem_nil

/-- The slots of variables that have one are found. -/
theorem slotsOf_eq {names : Slots} {more : List String} (h : ∀ v ∈ more, v ∈ names) :
    names.slotsOf more = .ok (slotsIn names more) := by
  induction more with
  | nil => rfl
  | cons name rest ih =>
    obtain ⟨slot, hs⟩ := slot?_of_mem (h name List.mem_cons_self)
    rw [Slots.slotsOf, Slots.slotOf, hs, ih fun v hv => h v (List.mem_cons_of_mem _ hv)]
    unfold slotsIn
    rw [List.filterMap_cons_some hs]
    rfl

/-! ## Running a query -/

variable {env : Env} {q : Query}

/-- An expression that can be planned is worth what it means. -/
theorem planValue_down {e : Expr} (hv : ∀ v ∈ addExpr [] e, v ∈ env.names)
    (hl : e.labels = []) : (planValue env e).down = valueOf env e := by
  rw [planValue_eq, valueAt_eq env e hv hl]

/-- The plan of a plannable group lists its solutions. -/
theorem groupPlan_lists {g : Group} (h : IsPlannable env.names g) (seed : Solution) :
    ∃ c, groupPlan env g seed = .ok c ∧ c.Lists (groupSolutions env g seed) := by
  have hrows := groupPlan_rows env g seed
  rw [groupRows_eq env g h.covered h.unlabelled] at hrows
  exact map_eq_ok hrows

/-- The plan of the pattern lists its solutions joined with the data. -/
theorem planPattern_lists (h : IsRunnable env.names q) :
    ∃ root, planPattern env q = .ok root ∧ root.Lists (querySolutions env q) := by
  obtain ⟨input, hplan, hinput⟩ := groupPlan_lists h.pattern (.unbound env.names.length)
  unfold planPattern querySolutions
  rw [hplan]
  cases hdata : q.data with
  | none => exact ⟨input, rfl, hinput⟩
  | some block =>
    obtain ⟨slots, hs⟩ := slotsOf_of_subset (h.data block hdata)
    have htable : dataRows env.names block = .ok (dataSolutions env.names block) := by
      unfold dataSolutions dataRows
      rw [hs]
      rfl
    refine ⟨_, ?_, hinput.joinTable (dataSolutions env.names block)⟩
    show (dataRows env.names block).map _ = _
    rw [htable]
    rfl

/-- The computed columns are put into what a cursor lists. -/
theorem withItems_lists {items : List SelectItem}
    (h : ∀ item ∈ items, (∀ v ∈ addItem [] item, v ∈ env.names) ∧ item.labels = [])
    {input : SolutionCursor} {list : List Solution} (hinput : input.Lists list) :
    ∃ root, withItems env items input = .ok root ∧ root.Lists (itemSolutions env items list) := by
  induction items generalizing input list with
  | nil => exact ⟨input, rfl, hinput⟩
  | cons item rest ih =>
    have hrest := fun item hitem => h item (List.mem_cons_of_mem _ hitem)
    cases item with
    | var name => exact ih hrest hinput
    | expr value name =>
      obtain ⟨hv, hl⟩ := h _ List.mem_cons_self
      obtain ⟨slot, hs⟩ := slot?_of_mem (hv name (mem_insertName.mpr (Or.inr rfl)))
      have hvalue : (planValue env value).down = valueOf env value :=
        planValue_down (fun v hmem => hv v (mem_insertName.mpr (Or.inl hmem))) hl
      have hassign : assignName env.names name (valueOf env value) =
          assign slot (planValue env value).down := by
        funext row
        unfold assignName
        rw [hs, hvalue]
      obtain ⟨root, hroot, hlists⟩ := ih hrest (hinput.map (assign slot (planValue env value).down))
      refine ⟨root, ?_, ?_⟩
      · rw [withItems, Slots.slotOf, hs]
        exact hroot
      · rw [itemSolutions, hassign]
        exact hlists

/-- The computed columns of a runnable query have slots and no labels. -/
theorem IsRunnable.computed (h : IsRunnable env.names q) : ∀ item ∈ q.form.items,
    (∀ v ∈ addItem [] item, v ∈ env.names) ∧ item.labels = [] := by
  cases hform : q.form with
  | select duplicates projection =>
    cases projection with
    | all => exact fun item hitem => absurd hitem List.not_mem_nil
    | items items => exact h.items duplicates items hform
  | ask | construct => exact fun item hitem => absurd hitem List.not_mem_nil

/-- The plan of a query up to its sort lists the solutions before they are sorted. -/
theorem planUnsorted_lists (h : IsRunnable env.names q) :
    ∃ root, planUnsorted env q = .ok root ∧ root.Lists (unsortedSolutions env q) := by
  obtain ⟨input, hplan, hinput⟩ := planPattern_lists h
  obtain ⟨root, hroot, hlists⟩ := withItems_lists h.computed hinput
  refine ⟨root, ?_, hlists⟩
  unfold planUnsorted
  rw [hplan]
  exact hroot

/-- The keys that a runnable query sorts by are worth what they mean. -/
theorem sortKeys_eq (h : IsRunnable env.names q) :
    sortKeys env q.modifiers = keysOf env q.modifiers := by
  refine List.map_congr_left fun condition hc => ?_
  rw [planValue_down (h.keys condition hc).1 (h.keys condition hc).2]

/-- Sorting a cursor sorts what it lists. -/
theorem sorted_lists (h : IsRunnable env.names q) {input : SolutionCursor}
    {list : List Solution} (hinput : input.Lists list) :
    (sorted env q.modifiers input).Lists (sortedSolutions env q.modifiers list) := by
  have hkeys := sortKeys_eq h
  unfold sorted sortedSolutions
  rw [hkeys]
  split
  · exact hinput
  · exact hinput.whole _

/-- A table gets its columns, is sorted, projected, freed of repetitions and cut. -/
theorem planForm_select {duplicates : Duplicates} {projection : Projection}
    (hform : q.form = .select duplicates projection) (slots : List Nat)
    (input : SolutionCursor) :
    planForm env q slots input =
      (withItems env (Projection.itemsOf projection) input).map fun input =>
        let projected := (sorted env q.modifiers input).map (Solution.project slots)
        sliced q.modifiers (if duplicates = .keep then projected else projected.distinct) := by
  unfold planForm
  rw [hform]
  cases projection <;> rfl

/-- The plan of a query whose patterns have no labels lists the rows of the query. -/
theorem plan_lists (s : Store) (h : misplaced q = []) :
    ∃ root, plan (envOf s q) q =
        .ok ⟨root, outputColumns q, slotsIn (envOf s q).names (outputColumns q)⟩ ∧
      root.Lists (planSolutions (envOf s q) q) := by
  have hrun : IsRunnable (envOf s q).names q := isRunnable_slots h
  obtain ⟨input, hplan, hinput⟩ := planPattern_lists hrun
  have hslots : (envOf s q).names.slotsOf (outputColumns q) =
      .ok (slotsIn (envOf s q).names (outputColumns q)) := slotsOf_eq (columns_subset_slots q)
  unfold plan
  rw [hplan, hslots]
  simp only [Except.bind]
  unfold planSolutions outputColumns
  cases hform : q.form with
  | ask =>
    refine ⟨input, ?_, hinput⟩
    unfold planForm
    rw [hform]
    rfl
  | construct template =>
    refine ⟨_, ?_, (sorted_lists hrun hinput).sliced q.modifiers⟩
    unfold planForm
    rw [hform]
    rfl
  | select duplicates projection =>
    have hitems : q.form.items = Projection.itemsOf projection := by
      rw [hform]
      cases projection <;> rfl
    obtain ⟨root, hroot, hlists⟩ := withItems_lists hrun.computed hinput
    rw [hitems] at hroot hlists
    have hprojected := (sorted_lists hrun hlists).map
      (Solution.project (slotsIn (envOf s q).names (columns q)))
    refine ⟨_, ?_, (hprojected.deduplicated duplicates).sliced q.modifiers⟩
    rw [planForm_select hform, hroot]
    rfl

/-- A query whose patterns have no labels runs on every store and gives its answer. -/
theorem execute_eq (s : Store) (h : misplaced q = []) :
    execute s q = .ok (answerOf (envOf s q) q) := by
  obtain ⟨root, hplan, hlists⟩ := plan_lists s h
  unfold execute
  dsimp only
  rw [hplan]
  unfold planSolutions at hlists
  simp only [Except.bind]
  unfold answerOf outputColumns Plan.answer
  cases hform : q.form with
  | ask =>
    rw [hform] at hlists
    simp only [hlists.isInhabited_eq]
    rfl
  | construct template =>
    rw [hform] at hlists
    simp only [hlists.toList_eq]
    rfl
  | select duplicates projection =>
    rw [hform] at hlists
    simp only [hlists.toList_eq]
    rfl

end RdfStore.Eval
