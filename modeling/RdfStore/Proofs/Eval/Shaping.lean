import RdfStore.Proofs.Eval.BoundSlots
import RdfStore.Proofs.Eval.SameTriples

/-!
# How answers are shaped

The rows of a query are those of its pattern, merged with its data. A table shows them with the
computed columns, in order, projected, without repetitions if these are to go, and cut to the slice;
a truth value tells whether there are any; a graph is made of them in order and cut. The slice comes
last, so a table can be read page by page: the pages put together are the table without a slice.
-/

set_option autoImplicit false

namespace RdfStore.Eval

open Query Solution

variable {env : Env} {q : Query}

/-! ## Columns -/

/-- The values of the columns of a table in a row. -/
def shown (names : Slots) (more : List String) (row : Solution) : List (Option Term) :=
  more.map (names.value? row)

/-- The values in the slots of columns are those of the columns. -/
theorem map_get?_slotsIn {names : Slots} {more : List String} (h : ∀ v ∈ more, v ∈ names)
    (row : Solution) : (slotsIn names more).map row.get? = shown names more row := by
  induction more with
  | nil => rfl
  | cons name rest ih =>
    obtain ⟨slot, hslot⟩ := slot?_of_mem (h name List.mem_cons_self)
    have hvalue : names.value? row name = row.get? slot := by
      unfold Slots.value?
      rw [hslot]
      rfl
    have hrest := ih fun v hv => h v (List.mem_cons_of_mem _ hv)
    unfold slotsIn shown at *
    rw [List.filterMap_cons_some hslot, List.map_cons, List.map_cons, hrest, hvalue]

/-- An assignment to a variable that a row leaves free gives it the value, or leaves it free. -/
theorem value?_assignName {names : Slots} {name : String} {slot : Nat}
    (hslot : names.slot? name = some slot) (value : Valuation) {row : Solution}
    (hfree : ¬row.Binds slot) :
    names.value? (assignName names name value row) name = value row := by
  unfold Slots.value? assignName assign
  rw [hslot]
  show Solution.get? _ slot = value row
  dsimp only
  cases value row with
  | none => exact Option.not_isSome_iff_eq_none.mp hfree
  | some t => rw [get?_bind, if_pos rfl]

/-! ## Pages -/

/-- The pieces of a list, each as long as a page, put together are its beginning. -/
theorem flatMap_pieces {α : Type} (list : List α) (size count : Nat) :
    ((List.range count).flatMap fun k => (list.drop (k * size)).take size) =
      list.take (count * size) := by
  induction count with
  | zero => rw [Nat.zero_mul, List.take_zero, List.range_zero, List.flatMap_nil]
  | succ count ih =>
    rw [List.range_succ, List.flatMap_append, ih, List.flatMap_singleton, Nat.succ_mul,
      List.take_add]

/-- The query with another slice. -/
def resliced (q : Query) (limit : Option Nat) (offset : Nat) : Query :=
  { q with modifiers := { q.modifiers with limit, offset } }

/-- The rows of a table before it is cut. -/
def wholeTable (env : Env) (q : Query) (duplicates : Duplicates) (projection : Projection)
    (rows : List Solution) : List Solution :=
  let extended := itemSolutions env (Projection.itemsOf projection) rows
  let projected := (sortedSolutions env q.modifiers extended).map
    (Solution.project (slotsIn env.names (columns q)))
  if duplicates = .keep then projected else projected.eraseDups

/-- Whatever its slice, the table of a query is cut from the same rows. -/
theorem execute_resliced (s : Store) (h : misplaced q = []) {duplicates : Duplicates}
    {projection : Projection} (hform : q.form = .select duplicates projection)
    (limit : Option Nat) (offset : Nat) :
    execute s (resliced q limit offset) = .ok (.solutions (columns q)
      ((slicedList (resliced q limit offset).modifiers
        (wholeTable (envOf s q) q duplicates projection (querySolutions (envOf s q) q))).map
          (shown (slots q) (columns q)))) := by
  have hcolumns : ∀ v ∈ columns q, v ∈ slots q := by
    have hslots := columns_subset_slots q
    unfold outputColumns at hslots
    rwa [hform] at hslots
  have hshown : (fun row : Solution => (slotsIn (slots q) (columns q)).map row.get?) =
      shown (slots q) (columns q) := funext (map_get?_slotsIn hcolumns)
  rw [execute_eq s (show misplaced (resliced q limit offset) = [] from h), ← hshown]
  unfold answerOf
  rw [show (resliced q limit offset).form = .select duplicates projection from hform]
  rfl

/-! ## Answers -/

/-- The solutions of a pattern merged with those of the data at the end of the query. -/
def mergedWith (names : Slots) (data : Option DataBlock) (rows : List Solution) : List Solution :=
  match data with
  | some block => rows.flatMap (joinTable (dataSolutions names block))
  | none => rows

/-- The table of a query, without a slice, is read by pages of a size: the answers to the query that
is cut to a page are its pieces, in order, and enough of them put together are all of it. -/
def ReadsByPages (s : Store) (q : Query) (size : Nat) : Prop :=
  ∃ (whole : List (List (Option Term))) (page : Nat → List (List (Option Term))),
    execute s (resliced q none 0) = .ok (.solutions (columns q) whole) ∧
    (∀ k, execute s (resliced q (some size) (k * size)) = .ok (.solutions (columns q) (page k))) ∧
    (∀ count, (List.range count).flatMap page = whole.take (count * size)) ∧
    ∃ enough, ∀ count, enough ≤ count → (List.range count).flatMap page = whole

/-- The answers that a query has on a store when its pattern and its data come to these rows. -/
structure AnswersFrom (s : Store) (q : Query) (rows : List Solution) : Prop where
  /-- A table gets its computed columns, is sorted, projected, freed of repetitions and cut. -/
  table : ∀ duplicates projection, q.form = .select duplicates projection →
    execute s q = .ok (.solutions (columns q)
      ((slicedList q.modifiers (wholeTable (envOf s q) q duplicates projection rows)).map
        (shown (slots q) (columns q))))
  /-- A computed column has the value of its expression, and none where that has none. -/
  computed : ∀ before value name after, q.form.items = before ++ .expr value name :: after →
    ∀ row ∈ itemSolutions (envOf s q) before rows,
      (slots q).value? (assignName (slots q) name (valueOf (envOf s q) value) row) name =
        valueOf (envOf s q) value row
  /-- A truth value tells whether there are rows, whatever the slice. -/
  truth : q.form = .ask → ∀ limit offset,
    execute s (resliced q limit offset) = .ok (.boolean !rows.isEmpty)
  /-- A graph is made of the rows in order, cut. -/
  graph : ∀ template, q.form = .construct template →
    execute s q = .ok (.graph (construct (envOf s q) template
      (slicedList q.modifiers (sortedSolutions (envOf s q) q.modifiers rows))))
  /-- A table is read by pages of any size. -/
  pages : ∀ duplicates projection, q.form = .select duplicates projection → ∀ size, 0 < size →
    ReadsByPages s q size

/-- The table of a query is read by pages. -/
theorem execute_pages (s : Store) (h : misplaced q = []) {duplicates : Duplicates}
    {projection : Projection} (hform : q.form = .select duplicates projection) {size : Nat}
    (hsize : 0 < size) : ReadsByPages s q size := by
  have hcut := execute_resliced s h hform
  let rows := wholeTable (envOf s q) q duplicates projection (querySolutions (envOf s q) q)
  let cells := shown (slots q) (columns q)
  have hpieces : ∀ count, ((List.range count).flatMap fun k =>
      ((rows.drop (k * size)).take size).map cells) = (rows.map cells).take (count * size) := by
    intro count
    rw [← List.map_flatMap, flatMap_pieces, List.map_take]
  refine ⟨rows.map cells, _, hcut none 0, fun k => hcut (some size) (k * size), hpieces,
    (rows.map cells).length, fun count hcount => ?_⟩
  refine (hpieces count).trans (List.take_of_length_le ?_)
  exact Nat.le_trans hcount (Nat.le_mul_of_pos_right count hsize)

/-- Every query that is read has an answer on every store: the plan of its pattern is read to its
end, what it gives is merged with the data, and the answer is shaped from these rows by the form of
the query. -/
theorem execute_shapes {text : String} {q : Query} (hread : Query.read text = .ok q) (s : Store) :
    ∃ rows, planRows (groupPlan (envOf s q) q.pattern (.unbound (slots q).length)) = .ok rows ∧
      AnswersFrom s q (mergedWith (slots q) q.data rows) := by
  have hplaced := read_placed hread
  have hrun : IsRunnable (envOf s q).names q := isRunnable_slots hplaced
  have hwell : q.IsWellFormed := (meets_soundness hread).2
  refine ⟨_, planRows_of_isPlannable hrun.pattern _, ?_⟩
  show AnswersFrom s q (querySolutions (envOf s q) q)
  refine ⟨fun duplicates projection hform => ?_, fun before value name after hsplit row hrow => ?_,
    fun hform limit offset => ?_, fun template hform => ?_,
    fun duplicates projection hform size hsize => execute_pages s hplaced hform hsize⟩
  · exact execute_resliced s hplaced hform q.modifiers.limit q.modifiers.offset
  · have hmem : SelectItem.expr value name ∈ q.form.items :=
      hsplit ▸ List.mem_append_right _ List.mem_cons_self
    obtain ⟨slot, hslot⟩ :=
      slot?_of_mem ((hrun.computed _ hmem).1 name (mem_insertName.mpr (Or.inr rfl)))
    refine value?_assignName hslot _ fun hbound => ?_
    -- a column is new when it is computed, so its slot is free
    have hscope :=
      itemSolutions_isSlotOf (querySolutions_isSlotOf hrun.pattern) row hrow slot hbound
    exact hwell.columns before _ after hsplit (mem_of_isSlotOf hscope hslot)
  · rw [execute_eq s (show misplaced (resliced q limit offset) = [] from hplaced)]
    unfold answerOf
    rw [show (resliced q limit offset).form = .ask from hform]
    rfl
  · rw [execute_eq s hplaced]
    unfold answerOf
    rw [hform]

/-- A text for a table with a column twice, a computed one, an order that is not shown and the
largest offset. -/
def farTable : String :=
  "SELECT REDUCED ?x ?x (STRLEN(?n) AS ?k) \x7b ?x ?p ?n \x7d ORDER BY DESC(?p) LIMIT 2 " ++
    "OFFSET 18446744073709551615 VALUES ?x \x7b UNDEF \x7d"

/-- Whether a text is a query for a table. -/
def isTable (text : String) : Bool :=
  match Query.read text with
  | .ok ⟨.select _ _, _, _, _⟩ => true
  | _ => false

/-- The answer to the text on the refilled store is shaped from the rows of its pattern, and its
table can be read there row by row. -/
theorem execute_shapes_farTable :
    ∃ q rows, Query.read farTable = .ok q ∧
      planRows (groupPlan (envOf Store.refilled q) q.pattern (.unbound (slots q).length)) =
        .ok rows ∧
      AnswersFrom Store.refilled q (mergedWith (slots q) q.data rows) ∧
      ReadsByPages Store.refilled q 1 := by
  have htable : isTable farTable = true := by decide +kernel
  unfold isTable at htable
  split at htable
  · rename_i hread
    obtain ⟨rows, hrows, hanswers⟩ := execute_shapes hread Store.refilled
    exact ⟨_, rows, hread, hrows, hanswers, hanswers.pages _ _ rfl 1 Nat.one_pos⟩
  · cases htable

end RdfStore.Eval
