import RdfStore.Proofs.Eval.GroupMeaning
import RdfStore.Proofs.Eval.JoinTable
import RdfStore.Proofs.Store.Refinement

/-!
# The order of joined elements

A group of triple blocks, nested groups, unions, inline data and conditions joins its seed with
one table after the other: one for each pattern, one for each nested group or union, one for
each block of data. Its conditions come last. Joins with tables can be exchanged, so the elements
can be permuted; and a nested group that has nothing but patterns is as good as its patterns.
-/

set_option autoImplicit false

namespace RdfStore.Eval

open Query Solution

/-! ## The same rows in some order -/

/-- Two outcomes are the same rows up to their order, or both are errors. -/
inductive SameRows {ε α : Type} : Except ε (List α) → Except ε (List α) → Prop where
  | ok {rows others : List α} (h : rows.Perm others) : SameRows (.ok rows) (.ok others)
  | error (e e' : ε) : SameRows (.error e) (.error e')

namespace SameRows

variable {ε α β : Type} {x y z : Except ε (List α)}

/-- Outcomes have the same rows as themselves. -/
theorem refl (x : Except ε (List α)) : SameRows x x := by
  cases x with
  | error e => exact .error e e
  | ok rows => exact .ok (List.Perm.refl rows)

/-- Equal outcomes have the same rows. -/
theorem of_eq (h : x = y) : SameRows x y := h ▸ refl x

/-- Having the same rows goes both ways. -/
theorem symm (h : SameRows x y) : SameRows y x := by
  cases h with
  | ok h => exact .ok h.symm
  | error e e' => exact .error e' e

/-- Outcomes with the rows of a third have the same rows. -/
theorem trans (h : SameRows x y) (h' : SameRows y z) : SameRows x z := by
  cases h with
  | ok h =>
    cases h' with
    | ok h' => exact .ok (h.trans h')
  | error e e' =>
    cases h' with
    | error _ e'' => exact .error e e''

/-- Steps that take permuted rows to the same rows can follow. -/
theorem bind {f g : List α → Except ε (List β)} (h : SameRows x y)
    (hstep : ∀ rows others, rows.Perm others → SameRows (f rows) (g others)) :
    SameRows (x.bind f) (y.bind g) := by
  cases h with
  | ok h => exact hstep _ _ h
  | error e e' => exact .error e e'

/-- Outcomes with the same rows have the same ones left after a filter. -/
theorem map_filter (h : SameRows x y) (p : α → Bool) :
    SameRows (x.map (List.filter p)) (y.map (List.filter p)) := by
  cases h with
  | ok h => exact .ok (h.filter p)
  | error e e' => exact .error e e'

end SameRows

/-! ## Rows read to their end -/

namespace Rows

variable {ε α β : Type}

/-- Rows put in front of others come first, and errors stay. -/
theorem toExcept_prepend (front : List α) (r : Rows ε α) :
    (prepend front r).toExcept = r.toExcept.map (front ++ ·) := by
  induction front with
  | nil => cases h : r.toExcept <;> simp [prepend, h, Except.map]
  | cons a front ih =>
    rw [prepend, toExcept, ih]
    cases r.toExcept <;> rfl

/-- Replacing each row by rows that cannot fail does so in the list of them all. -/
theorem toExcept_flatMap_ok (f : α → List β) (r : Rows ε α) :
    (r.flatMap fun a => .ok (f a)).toExcept = r.toExcept.map (List.flatMap f) := by
  induction r with
  | done => rfl
  | failed e => rfl
  | row a rest ih =>
    rw [flatMap, toExcept_prepend, ih, toExcept]
    cases rest.toExcept <;> simp [Except.map]

/-- Filtering rows filters the list of them all. -/
theorem toExcept_filter (p : α → Bool) (r : Rows ε α) :
    (r.filter p).toExcept = r.toExcept.map (List.filter p) := by
  have hfilter : List.flatMap (fun a => if p a then [a] else []) = List.filter p := by
    funext list
    induction list with
    | nil => rfl
    | cons a rest ih => cases h : p a <;> simp [h, ih]
  rw [filter, toExcept_flatMap_ok, hfilter]

end Rows

/-! ## Tables one after the other -/

/-- A table that is not there when the group that it comes from cannot be read. -/
abbrev Table := Except ExecutionError (List Solution)

/-- Joins rows with tables. -/
def joinAll : List Table → List Solution → Except ExecutionError (List Solution)
  | [], rows => .ok rows
  | table :: rest, rows => table.bind fun table => joinAll rest (rows.flatMap (joinTable table))

/-- Joining with tables in two lots is joining with all of them. -/
theorem joinAll_append (first second : List Table) (rows : List Solution) :
    joinAll (first ++ second) rows = (joinAll first rows).bind (joinAll second) := by
  induction first generalizing rows with
  | nil => rfl
  | cons table rest ih =>
    cases table with
    | error e => rfl
    | ok table => exact ih (rows.flatMap (joinTable table))

/-- Joins of rows in another order have the same rows. -/
theorem joinAll_perm_rows (tables : List Table) {rows others : List Solution}
    (h : rows.Perm others) : SameRows (joinAll tables rows) (joinAll tables others) := by
  induction tables generalizing rows others with
  | nil => exact .ok h
  | cons table rest ih =>
    cases table with
    | error e => exact .error e e
    | ok table => exact ih (h.flatMap_right _)

/-- Tables can be permuted. -/
theorem joinAll_perm {tables others : List Table} (h : tables.Perm others)
    (rows : List Solution) : SameRows (joinAll tables rows) (joinAll others rows) := by
  induction h generalizing rows with
  | nil => exact .refl _
  | cons table _ ih =>
    cases table with
    | error e => exact .error e e
    | ok table => exact ih (rows.flatMap (joinTable table))
  | swap first second rest =>
    cases first with
    | error e =>
      cases second with
      | error e' => exact .error e' e
      | ok table => exact .error e e
    | ok table =>
      cases second with
      | error e' => exact .error e' e'
      | ok table' =>
        show SameRows (joinAll rest ((rows.flatMap (joinTable table')).flatMap (joinTable table)))
          (joinAll rest ((rows.flatMap (joinTable table)).flatMap (joinTable table')))
        apply joinAll_perm_rows
        rw [List.flatMap_assoc, List.flatMap_assoc]
        exact List.Perm.flatMap_left rows fun row _ => joinTable_comm table' table row
  | trans _ _ ih ih' => exact (ih rows).trans (ih' rows)

/-- Tables that are joined first are joined as one table. -/
theorem joinAll_flatMap (tables : List Table) (start rows : List Solution) :
    joinAll tables (rows.flatMap (joinTable start)) =
      (joinAll tables start).map fun table => rows.flatMap (joinTable table) := by
  induction tables generalizing start with
  | nil => rfl
  | cons table rest ih =>
    cases table with
    | error e => rfl
    | ok table =>
      have hmerged : (rows.flatMap (joinTable start)).flatMap (joinTable table) =
          rows.flatMap (joinTable (start.flatMap (joinTable table))) := by
        rw [List.flatMap_assoc]
        congr 1
        funext row
        exact (joinTable_flatMap start table row).symm
      show joinAll rest ((rows.flatMap (joinTable start)).flatMap (joinTable table)) = _
      rw [hmerged, ih]
      rfl

/-- A table whose one row binds nothing joins to what was there. -/
theorem joinTable_unbound (width : Nat) (rows : List Solution) :
    rows.flatMap (joinTable [unbound width]) = rows := by
  have hrow : joinTable [unbound width] = fun row => [row] := by
    funext row
    simp [joinTable, merge?_unbound]
  rw [hrow, ← List.map_eq_flatMap, List.map_id']

/-- A table made of others, starting with nothing, can be replaced by them. -/
theorem joinAll_inline {table : Table} {inner : List Table} {width : Nat}
    (h : SameRows table (joinAll inner [unbound width])) (rest : List Table)
    (rows : List Solution) :
    SameRows (joinAll (table :: rest) rows) (joinAll (inner ++ rest) rows) := by
  have hinner := joinAll_flatMap inner [unbound width] rows
  rw [joinTable_unbound] at hinner
  rw [joinAll_append, hinner, bind_map]
  refine h.bind fun first second hperm => ?_
  apply joinAll_perm_rows
  exact List.Perm.flatMap_left rows fun row _ => joinTable_perm row hperm

/-! ## What elements join -/

/-- An element that joins rows with others or puts a condition on them. -/
def IsJoin : Element → Prop
  | .triples _ | .filter _ | .group _ | .union _ | .data _ => True
  | .optional _ | .minus _ | .bind _ _ => False

/-- The table of a pattern. -/
def patternTable (env : Env) (p : Pattern) : Table :=
  (Scan.ofPattern env.names p).map (Scan.table env.store)

/-- The tables that an element joins rows with. -/
def elementTables (env : Env) : Element → List Table
  | .triples patterns => patterns.map (patternTable env)
  | .group inner => [(groupRows env inner (.unbound env.names.length)).bind Rows.toExcept]
  | .union branches => [branchRows env branches]
  | .data block => [dataRows env.names block]
  | _ => []

variable {env : Env}

/-- Scans of patterns join with their tables. -/
theorem scanRows_sameRows (hs : env.store.IsCoherent) (patterns : List Pattern)
    (rows : Rows ExecutionError Solution) :
    SameRows ((scanRows env patterns rows).bind Rows.toExcept)
      (rows.toExcept.bind (joinAll (patterns.map (patternTable env)))) := by
  induction patterns generalizing rows with
  | nil =>
    show SameRows rows.toExcept (rows.toExcept.bind (joinAll []))
    cases rows.toExcept with
    | error e => exact .error e e
    | ok list => exact .refl _
  | cons p rest ih =>
    rw [scanRows, List.map_cons, patternTable]
    cases Scan.ofPattern env.names p with
    | error e =>
      cases rows.toExcept with
      | error e' => exact .error e e'
      | ok list => exact .error e e
    | ok scan =>
      refine (ih _).trans ?_
      rw [Rows.toExcept_flatMap_ok]
      cases rows.toExcept with
      | error e => exact .error e e
      | ok list =>
        apply joinAll_perm_rows
        exact List.Perm.flatMap_left list fun row _ => Scan.rows_perm_joinTable hs scan row

/-- The patterns that wait are scanned in another order than they were written. -/
theorem joinedRows_sameRows (hs : env.store.IsCoherent) (bound : List String)
    (waiting : List Pattern) (rows : Rows ExecutionError Solution) :
    SameRows ((scanRows env (joinOrder bound waiting) rows).bind Rows.toExcept)
      (rows.toExcept.bind (joinAll (waiting.map (patternTable env)))) := by
  refine (scanRows_sameRows hs _ rows).trans ((SameRows.refl _).bind fun list other hperm => ?_)
  exact (joinAll_perm ((joinOrder_perm bound waiting).map _) list).trans
    (joinAll_perm_rows _ hperm)

/-- After the patterns that wait, a step that joins with tables does so with theirs before. -/
theorem joined_bind (hs : env.store.IsCoherent) (bound : List String) (waiting : List Pattern)
    {step : Rows ExecutionError Solution → GroupRows} {tables : List Table}
    (hstep : ∀ joined, SameRows ((step joined).bind Rows.toExcept)
      (joined.toExcept.bind (joinAll tables))) (rows : Rows ExecutionError Solution) :
    SameRows (((scanRows env (joinOrder bound waiting) rows).bind step).bind Rows.toExcept)
      (rows.toExcept.bind (joinAll (waiting.map (patternTable env) ++ tables))) := by
  have happend : rows.toExcept.bind (joinAll (waiting.map (patternTable env) ++ tables)) =
      (rows.toExcept.bind (joinAll (waiting.map (patternTable env)))).bind (joinAll tables) := by
    rw [bind_assoc]
    congr 1
    funext list
    exact joinAll_append _ tables list
  rw [happend]
  refine SameRows.trans ?_ ((joinedRows_sameRows hs bound waiting rows).bind
    fun _ _ => joinAll_perm_rows tables)
  rw [bind_assoc, bind_assoc]
  cases scanRows env (joinOrder bound waiting) rows with
  | error e => exact .error e e
  | ok joined => exact hstep joined

/-- Rows joined with a table, and then with others, have the rows of the join with all of them. -/
theorem toExcept_tableRows (table : Table) (rows : Rows ExecutionError Solution)
    (tables : List Table) :
    SameRows ((tableRows table joinTable rows).toExcept.bind (joinAll tables))
      (rows.toExcept.bind (joinAll (table :: tables))) := by
  cases table with
  | error e =>
    cases rows.toExcept with
    | error e' => exact .error e e'
    | ok list => exact .error e e
  | ok table =>
    rw [tableRows, Rows.toExcept_flatMap_ok, bind_map]
    exact .refl _

/-- Elements join the rows with the tables of the patterns that wait and with their own. -/
theorem elementRows_sameRows (hs : env.store.IsCoherent) {elements : List Element}
    (h : ∀ e ∈ elements, IsJoin e) (bound : List String) (waiting : List Pattern)
    (rows : Rows ExecutionError Solution) :
    SameRows ((elementRows env elements bound waiting rows).bind Rows.toExcept)
      (rows.toExcept.bind (joinAll
        (waiting.map (patternTable env) ++ elements.flatMap (elementTables env)))) := by
  induction elements generalizing bound waiting rows with
  | nil =>
    rw [List.flatMap_nil, List.append_nil]
    exact joinedRows_sameRows hs bound waiting rows
  | cons element rest ih =>
    have hrest : ∀ e ∈ rest, IsJoin e := fun e he => h e (List.mem_cons_of_mem _ he)
    have hfirst : IsJoin element := h element List.mem_cons_self
    -- a table on top of the patterns that wait, and then the elements that are left
    have htable : ∀ (table : Table) bound' joined,
        SameRows ((elementRows env rest bound' [] (tableRows table joinTable joined)).bind
          Rows.toExcept)
          (joined.toExcept.bind (joinAll (table :: rest.flatMap (elementTables env)))) :=
      fun table bound' joined =>
        (ih hrest bound' [] (tableRows table joinTable joined)).trans
          (toExcept_tableRows table joined _)
    rw [List.flatMap_cons]
    cases element with
    | triples patterns =>
      have hwaiting := ih hrest bound (waiting ++ patterns) rows
      rw [List.map_append, List.append_assoc] at hwaiting
      exact hwaiting
    | filter condition => exact ih hrest bound waiting rows
    | group inner => exact joined_bind hs bound waiting (htable _ _) rows
    | union branches => exact joined_bind hs bound waiting (htable _ _) rows
    | data block =>
      refine joined_bind hs bound waiting (fun joined => ?_) rows
      refine SameRows.trans ?_ (htable (dataRows env.names block)
        (bound ++ waiting.flatMap Pattern.vars ++ block.vars) joined)
      cases hdata : dataRows env.names block with
      | error e =>
        refine SameRows.symm ((ih hrest _ [] (.failed e)).trans (.error e e))
      | ok table => exact .refl _
    | «optional» group => exact hfirst.elim
    | minus group => exact hfirst.elim
    | bind value name => exact hfirst.elim

/-! ## Conditions -/

/-- The conditions of elements in a row are those of the first part and those of the second. -/
theorem conditions_append (first second : List Element) :
    conditions env (first ++ second) = conditions env first ++ conditions env second := by
  induction first with
  | nil => rfl
  | cons element rest ih => cases element <;> simp [conditions, ih]

/-- The conditions of elements in another order are the same in another order. -/
theorem conditions_perm {elements others : List Element} (h : elements.Perm others) :
    (conditions env elements).Perm (conditions env others) := by
  induction h with
  | nil => exact List.Perm.refl _
  | cons element _ ih => cases element <;> simp [conditions, ih]
  | swap first second rest =>
    cases first <;> cases second <;> simp [conditions, List.Perm.swap]
  | trans _ _ ih ih' => exact ih.trans ih'

/-- Blocks of triples are no conditions. -/
theorem conditions_triples (blocks : List (List Pattern)) :
    conditions env (blocks.map .triples) = [] := by
  induction blocks with
  | nil => rfl
  | cons block rest ih => exact ih

/-- The tables of blocks of triples are those of their patterns. -/
theorem elementTables_triples (blocks : List (List Pattern)) :
    (blocks.map Element.triples).flatMap (elementTables env) =
      blocks.flatten.map (patternTable env) := by
  induction blocks with
  | nil => rfl
  | cons block rest ih =>
    rw [List.map_cons, List.flatMap_cons, ih, List.flatten_cons, List.map_append]
    rfl

/-! ## Groups -/

/-- A group joins its seed with its tables and keeps what satisfies its conditions. -/
theorem groupRows_sameRows (hs : env.store.IsCoherent) {elements : List Element}
    (h : ∀ e ∈ elements, IsJoin e) (seed : Solution) :
    SameRows ((groupRows env (.mk elements) seed).bind Rows.toExcept)
      ((joinAll (elements.flatMap (elementTables env)) [seed]).map (List.filter fun row =>
        (conditions env elements).all fun condition => condition.holds row)) := by
  have helements := elementRows_sameRows hs h (env.names.boundNames seed) [] (.ofList [seed])
  rw [groupRows, bind_map]
  simp only [Rows.toExcept_filter]
  rw [← map_bind]
  exact helements.map_filter _

/-- Groups that join with the same tables, up to their order, under the same conditions. -/
theorem planRows_sameRows (hs : env.store.IsCoherent) {elements others : List Element}
    (h : ∀ e ∈ elements, IsJoin e) (h' : ∀ e ∈ others, IsJoin e) (seed : Solution)
    (htables : SameRows (joinAll (elements.flatMap (elementTables env)) [seed])
      (joinAll (others.flatMap (elementTables env)) [seed]))
    (hconditions : (conditions env elements).Perm (conditions env others)) :
    SameRows (planRows (groupPlan env (.mk elements) seed))
      (planRows (groupPlan env (.mk others) seed)) := by
  have hfilter : (fun row => (conditions env elements).all fun condition => condition.holds row) =
      fun row => (conditions env others).all fun condition => condition.holds row := by
    funext row
    exact hconditions.all_eq
  rw [planRows_eq, planRows_eq, groupPlan_rows, groupPlan_rows]
  refine (groupRows_sameRows hs h seed).trans (.trans ?_ (groupRows_sameRows hs h' seed).symm)
  rw [hfilter]
  exact htables.map_filter _

/-- The rows of a group of patterns are what joining the tables of the patterns gives. -/
theorem patternGroup_sameRows (hs : env.store.IsCoherent) (blocks : List (List Pattern))
    (seed : Solution) :
    SameRows ((groupRows env (.mk (blocks.map .triples)) seed).bind Rows.toExcept)
      (joinAll (blocks.flatten.map (patternTable env)) [seed]) := by
  have hjoin : ∀ e ∈ blocks.map Element.triples, IsJoin e := by
    intro e he
    obtain ⟨block, -, rfl⟩ := List.mem_map.mp he
    trivial
  refine (groupRows_sameRows hs hjoin _).trans (.of_eq ?_)
  rw [elementTables_triples, conditions_triples]
  cases joinAll (blocks.flatten.map (patternTable env)) [seed] with
  | error e => rfl
  | ok rows => exact congrArg Except.ok (List.filter_eq_self.mpr fun _ _ => rfl)

/-- A group of patterns among other tables can be replaced by its patterns. -/
theorem inline_sameRows (hs : env.store.IsCoherent) (before after : List Table)
    (blocks : List (List Pattern)) (rows : List Solution) :
    SameRows
      (joinAll (before ++ (groupRows env (.mk (blocks.map .triples))
        (.unbound env.names.length)).bind Rows.toExcept :: after) rows)
      (joinAll (before ++ (blocks.flatten.map (patternTable env) ++ after)) rows) := by
  rw [joinAll_append, joinAll_append]
  refine (SameRows.refl _).bind fun list other hperm => ?_
  exact (joinAll_inline (patternGroup_sameRows hs blocks _) after list).trans
    (joinAll_perm_rows _ hperm)

/-- On every store and from every seed: when all elements of a group are triple blocks, nested
groups, unions, inline data and conditions, permuting them leaves the rows of its plan the same up
to their order, and so does replacing a nested group of triple blocks by its patterns, as lines
of their own or run together with the triple blocks around it. The rows of a plannable group are
never an error. -/
theorem groupPlan_rearranged (hs : env.store.IsReachable) (seed : Solution) :
    (∀ elements others : List Element, (∀ e ∈ elements, IsJoin e) → elements.Perm others →
      SameRows (planRows (groupPlan env (.mk elements) seed))
        (planRows (groupPlan env (.mk others) seed))) ∧
    (∀ (before after : List Element) (front blocks back lines : List (List Pattern)),
      (∀ e ∈ before ++ after, IsJoin e) →
      lines.flatten = front.flatten ++ blocks.flatten ++ back.flatten →
      SameRows
        (planRows (groupPlan env (.mk (before ++ front.map .triples ++
          .group (.mk (blocks.map .triples)) :: (back.map .triples ++ after))) seed))
        (planRows (groupPlan env (.mk (before ++ lines.map .triples ++ after)) seed))) ∧
    (∀ g, IsPlannable env.names g → ∃ rows, planRows (groupPlan env g seed) = .ok rows) := by
  have hcoherent := hs.isCoherent
  refine ⟨fun elements others h hperm => ?_, fun before after front blocks back lines h hlines => ?_,
    fun g hg => ⟨_, planRows_of_isPlannable hg seed⟩⟩
  · have hothers : ∀ e ∈ others, IsJoin e := fun e he => h e (hperm.mem_iff.mpr he)
    exact planRows_sameRows hcoherent h hothers seed (joinAll_perm (hperm.flatMap_right _) _)
      (conditions_perm hperm)
  · have htriples : ∀ blocks : List (List Pattern), ∀ e ∈ blocks.map Element.triples, IsJoin e := by
      intro blocks e he
      obtain ⟨block, -, rfl⟩ := List.mem_map.mp he
      trivial
    have hbefore : ∀ e ∈ before, IsJoin e := fun e he => h e (List.mem_append_left _ he)
    have hafter : ∀ e ∈ after, IsJoin e := fun e he => h e (List.mem_append_right _ he)
    apply planRows_sameRows hcoherent
    · simp only [List.forall_mem_append, List.forall_mem_cons]
      exact ⟨⟨hbefore, htriples front⟩, trivial, htriples back, hafter⟩
    · simp only [List.forall_mem_append]
      exact ⟨⟨hbefore, htriples lines⟩, hafter⟩
    · simp only [List.flatMap_append, List.flatMap_cons, elementTables_triples, hlines,
        List.map_append, elementTables, List.singleton_append]
      refine (inline_sameRows hcoherent _ _ blocks _).trans (.of_eq ?_)
      simp only [List.append_assoc]
    · simp only [conditions_append, conditions, conditions_triples, List.append_nil,
        List.nil_append]
      exact List.Perm.refl _

/-- Acquaintances of Bob, with an element of each kind that can be exchanged. -/
def gathering : List Element :=
  let knows : Place := .term (.iri ⟨"http://example.org/knows"⟩)
  [.triples [⟨.var "x", knows, .var "y"⟩],
    .filter (.exists false (.mk [.triples [⟨.var "y", knows, .var "z"⟩]])),
    .union [.mk [.triples [⟨.var "x", knows, .var "w"⟩]],
      .mk [.triples [⟨.var "w", knows, .var "x"⟩]]],
    .data ⟨["x", "y"], [[some (.iri ⟨"http://example.org/bob"⟩), none]]⟩]

/-- On a reachable store the elements can be reversed, and the patterns of a group after them
can be written in line. -/
theorem groupPlan_rearranged_gathering :
    let env : Env := ⟨Store.refilled, ["x", "y", "z", "w"]⟩
    let knows : Place := .term (.iri ⟨"http://example.org/knows"⟩)
    let follows : List Pattern := [⟨.var "y", knows, .var "z"⟩, ⟨.var "z", knows, .var "w"⟩]
    env.store.IsReachable ∧ (∀ e ∈ gathering, IsJoin e) ∧
      SameRows (planRows (groupPlan env (.mk gathering) (.unbound 4)))
        (planRows (groupPlan env (.mk gathering.reverse) (.unbound 4))) ∧
      SameRows
        (planRows (groupPlan env (.mk (gathering ++ [.group (.mk [.triples follows])]))
          (.unbound 4)))
        (planRows (groupPlan env (.mk (gathering ++ [.triples follows])) (.unbound 4))) ∧
      ∃ rows, planRows (groupPlan env (.mk gathering) (.unbound 4)) = .ok rows := by
  intro env knows follows
  have hstore : env.store.IsReachable := ⟨_, _, rfl⟩
  have hjoin : ∀ e ∈ gathering, IsJoin e := by simp [gathering, IsJoin]
  have hplannable : IsPlannable env.names (.mk gathering) := ⟨by decide, by decide⟩
  obtain ⟨hperm, hinline, hrows⟩ := groupPlan_rearranged hstore (.unbound 4)
  refine ⟨hstore, hjoin, hperm gathering _ hjoin (List.reverse_perm gathering).symm, ?_,
    hrows _ hplannable⟩
  have hafter : ∀ e ∈ gathering ++ [], IsJoin e := by simpa using hjoin
  exact hinline gathering [] [] [follows] [] [follows] hafter rfl

end RdfStore.Eval
