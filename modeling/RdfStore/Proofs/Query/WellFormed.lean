import RdfStore.Proofs.Peg.Spelling
import RdfStore.Proofs.Query.SoundParts

/-!
# Queries that are read are well formed

On top of its sound parts, a query that is read has columns and sort keys whose variables are in
scope, and no computed column takes the name of a variable that is in scope before it. A
consequence is that its patterns, at any depth, have no blank nodes of the template kind.
-/

set_option autoImplicit false

namespace RdfStore.Query

open RdfStore.Peg RdfStore.Syntax

/-! ## Well-formed queries -/

/-- Every column is sound in the scope with the columns that were computed before it. -/
def AreSoundIn (inScope : List String) (items : List SelectItem) : Prop :=
  ∀ before item after, items = before ++ item :: after →
    item.IsSoundIn (inScope ++ before.filterMap SelectItem.alias?)

/-- A query that the planner and the evaluator are written for. -/
structure IsWellFormed (q : Query) : Prop where
  /-- Groups and expressions are sound at every depth. -/
  parts : ∀ p, q.HasPart p → p.IsSound
  /-- The data at the end has one entry for each variable in every row. -/
  data : ∀ block, q.data = some block → block.IsRectangular
  /-- Plain columns are in the scope of the pattern, the data and the columns computed before;
  computed ones are not. -/
  columns : AreSoundIn (q.pattern.vars ++ q.data.elim [] DataBlock.vars) q.form.items
  /-- Sort keys use variables of the pattern, the data or the columns, `EXISTS` apart. -/
  keys : ∀ condition ∈ q.modifiers.orderBy, ∀ v ∈ condition.key.vars,
    v ∈ q.pattern.vars ∨ v ∈ q.data.elim [] DataBlock.vars ∨
      v ∈ q.form.items.map SelectItem.name

/-- Sort keys see the variables of the pattern, of the data and of the columns. -/
theorem mem_orderScope {q : Query} {v : String} :
    v ∈ orderScope q ↔ v ∈ q.pattern.vars ∨ v ∈ q.data.elim [] DataBlock.vars ∨
      v ∈ q.form.items.map SelectItem.name := by
  obtain ⟨form, pattern, modifiers, data⟩ := q
  unfold orderScope
  rcases form with ⟨_, _ | items⟩ | _ | _ <;> simp [Form.items]

/-- A query that is sound and uses no unbound variable in its sort keys is well formed. -/
theorem Meets.isWellFormed {q : Query} (h : Meets soundness q) (hkeys : unboundKey? q = none) :
    q.IsWellFormed where
  parts p hp := by
    obtain ⟨root, hroot, hwithin⟩ := hp
    exact Part.meets_soundness.mp (h.roots root hroot p hwithin)
  data := h.data
  columns := h.form.columns
  keys condition hc v hv := by
    have hin := List.find?_eq_none.mp hkeys v (List.mem_flatMap.mpr ⟨condition, hc, hv⟩)
    exact mem_orderScope.mp (by simpa using hin)

/-! ## Reading a text -/

/-- A query that is read is the result of a walk over the nodes of its text. -/
theorem exists_run_of_read {text : String} {q : Query} (hread : read text = .ok q) :
    ∃ nodes k, parseQuery text.toList = .ok nodes ∧
      (readParts (nodes.flatMap ParseTree.children)).run.run 0 = (.ok q, k) := by
  unfold read at hread
  dsimp only at hread
  split at hread
  · cases hread
  · rename_i nodes hparse
    generalize hrun : (readParts (nodes.flatMap ParseTree.children)).run.run 0 = outcome at hread
    obtain ⟨r, k⟩ := outcome
    cases r with
    | error f => cases hread
    | ok value =>
      cases hread
      exact ⟨nodes, k, hparse, hrun⟩

/-- The parts of a text are formed. -/
theorem areFormed_of_parse {cs : List Char} {nodes : List Node} (h : parseQuery cs = .ok nodes) :
    AreFormed (nodes.flatMap ParseTree.children) := by
  intro child hchild
  obtain ⟨parent, hparent, hin⟩ := List.mem_flatMap.mp hchild
  exact (Grammar.isFormed_of_parse h parent hparent).children child hin

/-- What the walk over nodes of the grammar yields holds of every query that is read. -/
theorem of_read {property : Query → Prop}
    (h : ∀ nodes, AreFormed nodes → (∀ node ∈ nodes, IsSpelled grammar node) →
      Yields (readParts nodes) property)
    {text : String} {q : Query} (hread : read text = .ok q) : property q := by
  obtain ⟨nodes, k, hparse, hrun⟩ := exists_run_of_read hread
  have hspelled : ∀ node ∈ nodes.flatMap ParseTree.children, IsSpelled grammar node := by
    intro child hchild
    obtain ⟨parent, hparent, hin⟩ := List.mem_flatMap.mp hchild
    exact (Grammar.isSpelled_of_parse hparse parent hparent).children child hin
  exact h _ (areFormed_of_parse hparse) hspelled 0 _ k hrun

/-- A query that is read is sound at every depth and well formed. -/
theorem meets_soundness {text : String} {q : Query} (hread : read text = .ok q) :
    Meets soundness q ∧ q.IsWellFormed := by
  obtain ⟨hmeets, hkeys⟩ := of_read (fun _ h _ => readParts_meets soundness_isRead h) hread
  exact ⟨hmeets, hmeets.isWellFormed hkeys⟩

/-- A query that is read has no misplaced labels. -/
theorem read_placed {text : String} {q : Query} (hread : read text = .ok q) :
    misplaced q = [] := by
  have hsound : ∀ root ∈ q.roots, root.IsDeeplySound := (meets_soundness hread).1.roots
  have hpattern : q.pattern.labels = [] := labels_of_group _ (hsound _ List.mem_cons_self)
  have hcomputed : ∀ e ∈ q.form.computed, e.labels = [] := fun e he => labels_of_expr e
    (hsound _ (List.mem_append_left _ (List.mem_cons_of_mem _ (List.mem_map_of_mem he))))
  have hkeys : ∀ condition ∈ q.modifiers.orderBy, condition.key.labels = [] :=
    fun condition hc => labels_of_expr _ (hsound _ (List.mem_append_right _
      (List.mem_map.mpr ⟨condition, hc, rfl⟩)))
  obtain ⟨form, pattern, modifiers, data⟩ := q
  unfold misplaced
  dsimp only
  rw [hpattern, List.flatMap_eq_nil_iff.mpr hkeys]
  rcases form with ⟨_, _ | items⟩ | _ | _
  · rfl
  · have hitems : items.flatMap SelectItem.labels = [] := by
      refine List.flatMap_eq_nil_iff.mpr fun item hitem => ?_
      cases item with
      | var name => rfl
      | expr value name => exact hcomputed value (List.mem_filterMap.mpr ⟨_, hitem, rfl⟩)
    show [] ++ items.flatMap SelectItem.labels ++ [] = []
    rw [hitems]
    rfl
  · rfl
  · rfl

/-- Whether a text is accepted. -/
def isAccepted (text : String) : Bool := (read text).toBool

/-- A text that is accepted is read as some query. -/
theorem exists_read_of_isAccepted {text : String} (h : isAccepted text = true) :
    ∃ q, read text = .ok q := by
  unfold isAccepted at h
  cases hread : read text with
  | error e =>
    rw [hread] at h
    cases h
  | ok q => exact ⟨q, rfl⟩

/-- A text with one of each: a union, inline data in both places, an assignment, calls and a
computed column. -/
def mixture : String :=
  "SELECT ?x (STRLEN(?n) AS ?k) \x7b { ?x ?p ?n } UNION { ?x ?q [] } VALUES ?x { UNDEF } " ++
    "BIND(IF(BOUND(?n), ?n, 0) AS ?m) FILTER NOT EXISTS { ?m ?p ?x } \x7d " ++
    "ORDER BY DESC(?k) ?m VALUES (?p ?q) { (UNDEF UNDEF) }"

/-- The text is a query. -/
theorem isAccepted_mixture : isAccepted mixture = true := by decide +kernel

/-- Every query that is read from a text is well formed: at every depth its patterns have no blank
node of a template, its unions have two branches or more, its inline data has one entry for each
variable in each row, its functions have as many arguments as they take, and no assigned variable
is bound before; and its columns and sort keys use variables in scope, whose names no computed
column takes. -/
theorem read_isWellFormed {text : String} {q : Query} (hread : read text = .ok q) :
    q.IsWellFormed :=
  (meets_soundness hread).2

/-- The text is accepted, and the query that it writes is well formed. -/
theorem read_isWellFormed_mixture : ∃ q, read mixture = .ok q ∧ q.IsWellFormed := by
  obtain ⟨q, hread⟩ := exists_read_of_isAccepted isAccepted_mixture
  exact ⟨q, hread, read_isWellFormed hread⟩

end RdfStore.Query
