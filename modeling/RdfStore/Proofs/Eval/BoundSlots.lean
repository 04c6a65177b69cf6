import RdfStore.Proofs.Eval.Growth
import RdfStore.Proofs.Eval.NoFailure

/-!
# Rows bind what is in scope

The variables that a group can bind are read off its text, and the checks of the reader rely on
them. They are right about every run: a row of the group binds slots of these variables and of the
seed only, and it binds all slots of the seed and all variables of the group's own patterns. So an
assignment finds its slot free unless the seed has a term there, a computed column always finds it
free, and the columns of a table of everything leave no visible variable out.
-/

set_option autoImplicit false

namespace RdfStore.Eval

open Query Solution

variable {env : Env}

/-! ## The variables of patterns -/

section Patterns

variable {rows rows' : Rows ExecutionError Solution} {p : Pattern} {v : String} {n : Nat}

/-- After a chain of scans every row binds the variables of the patterns. -/
theorem scanRows_binds {patterns : List Pattern} (hp : p ∈ patterns) (hv : v ∈ p.vars)
    (hn : env.names.slot? v = some n) (h : scanRows env patterns rows = .ok rows') :
    rows'.All fun row => row.Binds n := by
  induction patterns generalizing rows with
  | nil => exact absurd hp List.not_mem_nil
  | cons q rest ih =>
    obtain ⟨scan, hscan, hrest⟩ := bind_eq_ok h
    rcases List.mem_cons.mp hp with rfl | hp
    · have hkept : ∀ row other, row.Binds n →
          Grows env.names [] (rest.flatMap Pattern.vars) row other → other.Binds n :=
        fun row other hrow hgrows => hgrows.binds n hrow
      refine scanRows_all hkept (fun q hq w hw => List.mem_flatMap.mpr ⟨q, hq, hw⟩) hrest ?_
      refine Rows.all_flatMap (Rows.all_of_forall (fun _ => trivial) rows) ?_
      intro row _ list hlist other hother
      cases hlist
      obtain ⟨m, -, haccept⟩ := List.mem_filterMap.mp hother
      rw [Scan.binds_of_accept? haccept, mem_slots_ofPattern hscan]
      exact Or.inr ⟨v, hv, hn⟩
    · exact ih hp hrest

/-- After elements every row binds the variables of the patterns that waited and of those among
the elements. -/
theorem elementRows_binds {elements : List Element} {bound : List String}
    {waiting : List Pattern} (hp : p ∈ waiting ++ elements.flatMap Element.patterns)
    (hv : v ∈ p.vars) (hn : env.names.slot? v = some n)
    (h : elementRows env elements bound waiting rows = .ok rows') :
    rows'.All fun row => row.Binds n := by
  induction elements generalizing bound waiting rows with
  | nil =>
    rw [List.flatMap_nil, List.append_nil] at hp
    exact scanRows_binds ((joinOrder_perm bound waiting).mem_iff.mpr hp) hv hn h
  | cons element rest ih =>
    rw [List.flatMap_cons] at hp
    rcases elementRows_cons h with h | ⟨joined, mid, bound', hnone, hscan, hrest, hmid⟩
    · rw [← List.append_assoc] at hp
      exact ih hp h
    · rw [hnone, List.nil_append] at hp
      rcases List.mem_append.mp hp with hp | hp
      · -- the pattern is joined before the element, and its variables stay bound
        have hjoined := scanRows_binds ((joinOrder_perm bound waiting).mem_iff.mpr hp) hv hn hscan
        refine elementRows_all env rest (fun row other hrow hgrows => hgrows.binds n hrow)
          (fun _ hw => hw) (fun _ hw => hw) (fun _ hq => absurd hq List.not_mem_nil) hrest ?_
        exact hmid _ hjoined fun row other hrow hr => (replaces_grows env element hr).binds n hrow
      · exact ih (List.mem_append_right _ hp) hrest

end Patterns

/-! ## Groups -/

/-- A row binds what a group and a seed let it bind: no more than the seed and the variables of
the group, and no less than the seed and the variables of the group's own patterns. -/
structure StaysInScope (env : Env) (g : Group) (seed row : Solution) : Prop where
  only : ∀ n, row.Binds n → seed.Binds n ∨ IsSlotOf env.names g.vars n
  seeded : ∀ n, seed.Binds n → row.Binds n
  matched : ∀ patterns, .triples patterns ∈ g.elements → ∀ p ∈ patterns, ∀ v ∈ p.vars,
    ∃ n, env.names.slot? v = some n ∧ row.Binds n

/-- The variables of a group's own patterns are bound in all rows of the group. -/
theorem groupRows_binds {g : Group} {seed : Solution} {rows : Rows ExecutionError Solution}
    (h : groupRows env g seed = .ok rows) {patterns : List Pattern}
    (hpatterns : .triples patterns ∈ g.elements) {p : Pattern} (hp : p ∈ patterns) {v : String}
    (hv : v ∈ p.vars) {n : Nat} (hn : env.names.slot? v = some n) :
    rows.All fun row => row.Binds n := by
  obtain ⟨elements⟩ := g
  obtain ⟨unfiltered, helements, rfl⟩ := map_eq_ok h
  refine Rows.All.filter (elementRows_binds ?_ hv hn helements) _
  exact List.mem_flatMap.mpr ⟨.triples patterns, hpatterns, hp⟩

/-- Every solution of a group grows out of the seed. -/
theorem groupSolutions_grows {g : Group} (h : IsPlannable env.names g) (seed : Solution) :
    ∀ row ∈ groupSolutions env g seed, Grows env.names (assignedVars g) g.vars seed row :=
  (groupRows_grows env g seed (groupRows_eq env g h.covered h.unlabelled seed)).mem_of_toExcept
    (Rows.toExcept_ofList _)

/-- Every solution of a group stays in the scope of the group. -/
theorem groupSolutions_inScope {g : Group} (h : IsPlannable env.names g) (seed : Solution) :
    ∀ row ∈ groupSolutions env g seed, StaysInScope env g seed row := by
  intro row hrow
  have hgrows := groupSolutions_grows h seed row hrow
  refine ⟨hgrows.only, hgrows.binds, fun patterns hpatterns p hp v hv => ?_⟩
  have hmentioned : v ∈ addGroup [] g := by
    obtain ⟨elements⟩ := g
    refine Part.addElement_subset hpatterns ?_
    exact mem_insertNames.mpr (Or.inr (List.mem_flatMap.mpr ⟨p, hp, hv⟩))
  obtain ⟨n, hn⟩ := slot?_of_mem (h.covered v hmentioned)
  have hrows := groupRows_eq env g h.covered h.unlabelled seed
  refine ⟨n, hn, ?_⟩
  exact (groupRows_binds hrows hpatterns hp hv hn).mem_of_toExcept (Rows.toExcept_ofList _) row hrow

/-! ## Targets of assignments -/

/-- What an element of a group is planned on: the elements before it, with their patterns
joined. -/
def draftBefore (env : Env) (before : List Element) (seed : Solution) :
    Except ExecutionError Draft :=
  (elementsPlan env before ⟨.ofList [seed], env.names.boundNames seed, []⟩).bind
    (Draft.joined env)

/-- The variables of elements in a row are collected one part after the other. -/
theorem addElements_append (names : Slots) (before after : List Element) :
    addElements names (before ++ after) = addElements (addElements names before) after := by
  induction before generalizing names with
  | nil => rfl
  | cons element rest ih => exact ih (addElement names element)

/-- The front of a group can be planned if the whole group can. -/
theorem isPlannable_before {names : Slots} {before after : List Element}
    (h : IsPlannable names (.mk (before ++ after))) : IsPlannable names (.mk before) := by
  obtain ⟨hcovered, hlabels⟩ := h
  refine ⟨fun v hv => hcovered v ?_, ?_⟩
  · show v ∈ addElements [] (before ++ after)
    rw [addElements_append, mem_addElements after]
    exact Or.inl hv
  · have hboth : elementLabels (before ++ after) = [] := hlabels
    rw [Part.elementLabels_eq_flatMap, List.flatMap_append, List.append_eq_nil_iff] at hboth
    exact (Part.elementLabels_eq_flatMap before).trans hboth.1

/-- What comes to an element from a seed binds the seed and variables of the elements before. -/
theorem draftBefore_grows {before : List Element} (h : IsPlannable env.names (.mk before))
    (seed : Solution) : ∃ d rows, draftBefore env before seed = .ok d ∧ d.root.Lists rows ∧
      ∀ row ∈ rows, Grows env.names (elementAssigned before) (addElementVars [] before) seed row := by
  have hrows := elementRows_eq env before h.covered h.unlabelled (env.names.boundNames seed)
    (none_waiting env) [seed]
  have houtcome : (draftBefore env before seed).map (fun d => d.root.rows) = _ :=
    (elements_outcome env before ⟨.ofList [seed], env.names.boundNames seed, []⟩).trans hrows
  have hgrows := elementRows_all env before (fun _ _ h h' => Grows.trans h h') (fun _ hv => hv)
    (fun _ hv => hv) (fun _ hp => absurd hp List.not_mem_nil) hrows ⟨.refl _ _ _ seed, trivial⟩
  obtain ⟨d, hdraft, hlists⟩ := map_eq_ok houtcome
  exact ⟨d, _, hdraft, hlists, hgrows.mem_of_toExcept (Rows.toExcept_ofList _)⟩

/-- A slot that belongs to some variables is the slot of one of them. -/
theorem mem_of_isSlotOf {names : Slots} {vars : List String} {v : String} {n : Nat}
    (h : IsSlotOf names vars n) (hn : names.slot? v = some n) : v ∈ vars := by
  obtain ⟨w, hw, hslot⟩ := h
  have hsame := (getElem?_of_slot? hslot).symm.trans (getElem?_of_slot? hn)
  cases hsame
  exact hw

/-! ## Whole queries -/

variable {q : Query}

/-- A row of inline data binds the slots of its columns only. -/
theorem isSlotOf_of_dataSolutions {names : Slots} {block : DataBlock} :
    ∀ row ∈ dataSolutions names block, ∀ n, row.Binds n → IsSlotOf names block.vars n := by
  unfold dataSolutions
  split
  · rename_i rows hrows
    exact isSlotOf_of_dataRows hrows
  · exact fun row hrow => absurd hrow List.not_mem_nil

/-- The rows of a query bind only variables of its pattern and its data. -/
theorem querySolutions_isSlotOf (h : IsPlannable env.names q.pattern) :
    ∀ row ∈ querySolutions env q, ∀ n, row.Binds n →
      IsSlotOf env.names (q.pattern.vars ++ q.data.elim [] DataBlock.vars) n := by
  have hpattern := groupSolutions_grows h (.unbound env.names.length)
  intro row hrow n hn
  unfold querySolutions at hrow
  cases hdata : q.data with
  | none =>
    rw [hdata] at hrow
    exact ((hpattern row hrow).isSlotOf hn).mono fun v hv => List.mem_append_left _ hv
  | some block =>
    rw [hdata] at hrow
    obtain ⟨first, hfirst, hrow⟩ := List.mem_flatMap.mp hrow
    have hgrows : Grows env.names [] block.vars first row :=
      .of_joinTable isSlotOf_of_dataSolutions hrow
    rcases hgrows.only n hn with hn | hn
    · exact ((hpattern first hfirst).isSlotOf hn).mono fun v hv => List.mem_append_left _ hv
    · exact hn.mono fun v hv => List.mem_append_right _ hv

/-- Computed columns bind their own names. -/
theorem itemSolutions_isSlotOf {items : List SelectItem} {vars : List String}
    {rows : List Solution}
    (h : ∀ row ∈ rows, ∀ n, row.Binds n → IsSlotOf env.names vars n) :
    ∀ row ∈ itemSolutions env items rows, ∀ n, row.Binds n →
      IsSlotOf env.names (vars ++ items.filterMap SelectItem.alias?) n := by
  induction items generalizing vars rows with
  | nil =>
    rw [List.filterMap_nil, List.append_nil]
    exact h
  | cons item rest ih =>
    cases item with
    | var name => exact ih h
    | expr value name =>
      have hstep : ∀ row ∈ rows.map (assignName env.names name (valueOf env value)), ∀ n,
          row.Binds n → IsSlotOf env.names (vars ++ [name]) n := by
        intro other hother n hn
        obtain ⟨row, hrow, rfl⟩ := List.mem_map.mp hother
        unfold assignName at hn
        split at hn
        · rename_i slot hslot
          have hgrows := Grows.of_assign hslot (valueOf env value) row
          rcases hgrows.only n hn with hn | hn
          · exact (h row hrow n hn).mono fun v hv => List.mem_append_left _ hv
          · exact hn.mono fun v hv => List.mem_append_right _ hv
        · exact (h row hrow n hn).mono fun v hv => List.mem_append_left _ hv
      have hrest := ih hstep
      rw [List.append_assoc] at hrest
      exact hrest

/-! ## Plans -/

/-- A plan can be made, and it hands out rows with a property and then ends. -/
def Gives (plan : Except ExecutionError SolutionCursor) (property : Solution → Prop) : Prop :=
  ∃ c rows, plan = .ok c ∧ c.EndsAfter rows ∧ ∀ row ∈ rows, property row

/-- A plan that gives rows of one kind gives rows of any wider kind. -/
theorem Gives.imp {plan : Except ExecutionError SolutionCursor} {p p' : Solution → Prop}
    (h : Gives plan p) (himp : ∀ row, p row → p' row) : Gives plan p' := by
  obtain ⟨c, rows, hc, hends, hrows⟩ := h
  exact ⟨c, rows, hc, hends, fun row hrow => himp row (hrows row hrow)⟩

/-- The scope that is read off a query is right about every run. -/
structure HasSoundScope (env : Env) (q : Query) : Prop where
  /-- A group, at any depth, binds what it can bind. -/
  groups : ∀ g, q.HasPart (.group g) → ∀ seed,
    Gives (groupPlan env g seed) (StaysInScope env g seed)
  /-- An assignment finds its slot free unless the seed has a term there. -/
  targets : ∀ g, q.HasPart (.group g) → ∀ before value name after,
    g.elements = before ++ .bind value name :: after → ∀ seed,
      Gives ((draftBefore env before seed).map Draft.root) fun row =>
        ∀ n, env.names.slot? name = some n → row.Binds n → seed.Binds n
  /-- What is not in the scope of the query is never bound. -/
  pattern : Gives (planPattern env q) fun row => ∀ v n, env.names.slot? v = some n →
    row.Binds n → v ∈ q.pattern.vars ++ q.data.elim [] DataBlock.vars
  /-- A computed column finds its slot free. -/
  aliases : ∀ before value name after, q.form.items = before ++ .expr value name :: after →
    Gives ((planPattern env q).bind (withItems env before)) fun row =>
      ∀ n, env.names.slot? name = some n → ¬row.Binds n
  /-- The table of everything has a column for every variable that is bound and not hidden. -/
  everything : ∀ duplicates, q.form = .select duplicates .all →
    Gives (planPattern env q) fun row => ∀ v n, env.names.slot? v = some n →
      row.Binds n → isHidden v = false → v ∈ columns q

/-- The plan of a group gives rows that stay in the scope of the group. -/
theorem groupPlan_gives {g : Group} (h : IsPlannable env.names g) (seed : Solution) :
    Gives (groupPlan env g seed) (StaysInScope env g seed) := by
  obtain ⟨c, hc, hrows⟩ := groupPlan_lists h seed
  exact ⟨c, _, hc, hrows.endsAfter, groupSolutions_inScope h seed⟩

/-- When an assignment is reached, only the seed can have bound its slot. -/
theorem draftBefore_gives {before after : List Element} {value : Expr} {name : String}
    (h : IsPlannable env.names (.mk (before ++ .bind value name :: after)))
    (hname : name ∉ addElementVars [] before) (seed : Solution) :
    Gives ((draftBefore env before seed).map Draft.root) fun row =>
      ∀ n, env.names.slot? name = some n → row.Binds n → seed.Binds n := by
  obtain ⟨d, rows, hdraft, hrows, hgrows⟩ := draftBefore_grows (isPlannable_before h) seed
  refine ⟨d.root, rows, ?_, hrows.endsAfter, fun row hrow n hn hbound => ?_⟩
  · rw [hdraft]
    rfl
  · refine ((hgrows row hrow).only n hbound).resolve_right fun hslot => ?_
    exact hname (mem_of_isSlotOf hslot hn)

/-- The plan of the pattern binds variables of the pattern and of the data only. -/
theorem planPattern_gives (h : IsRunnable env.names q) :
    Gives (planPattern env q) fun row => ∀ v n, env.names.slot? v = some n →
      row.Binds n → v ∈ q.pattern.vars ++ q.data.elim [] DataBlock.vars := by
  obtain ⟨root, hplan, hlists⟩ := planPattern_lists h
  refine ⟨root, _, hplan, hlists.endsAfter, fun row hrow v n hn hbound => ?_⟩
  exact mem_of_isSlotOf (querySolutions_isSlotOf h.pattern row hrow n hbound) hn

/-- When a computed column is reached, no row has bound its slot. -/
theorem withItems_gives (h : IsRunnable env.names q) {before after : List SelectItem}
    {value : Expr} {name : String} (hsplit : q.form.items = before ++ .expr value name :: after)
    (hname : name ∉ q.pattern.vars ++ q.data.elim [] DataBlock.vars ++
      before.filterMap SelectItem.alias?) :
    Gives ((planPattern env q).bind (withItems env before)) fun row =>
      ∀ n, env.names.slot? name = some n → ¬row.Binds n := by
  have hbefore := fun item hitem => h.computed item (hsplit ▸ List.mem_append_left _ hitem)
  obtain ⟨root, hplan, hlists⟩ := planPattern_lists h
  obtain ⟨c, hc, hcomputed⟩ := withItems_lists hbefore hlists
  refine ⟨c, _, ?_, hcomputed.endsAfter, fun row hrow n hn hbound => ?_⟩
  · rw [hplan]
    exact hc
  · have hslot := itemSolutions_isSlotOf (querySolutions_isSlotOf h.pattern) row hrow n hbound
    exact hname (mem_of_isSlotOf hslot hn)

/-- The variables that are read off a query of an accepted text are right about every run on every
store. A row of a group binds slots of the seed and of the group's variables only, and it binds all
slots of the seed and all variables of the group's own patterns. So assignments and computed columns
find their slots free, a variable out of scope is never bound, and the table of everything leaves
out none that is. -/
theorem hasSoundScope_of_read {text : String} {q : Query} (hread : Query.read text = .ok q)
    (s : Store) : HasSoundScope (envOf s q) q := by
  have hwell : q.IsWellFormed := (meets_soundness hread).2
  have hrun : IsRunnable (envOf s q).names q := isRunnable_slots (read_placed hread)
  have hplannable : ∀ g, q.HasPart (.group g) → IsPlannable (envOf s q).names g :=
    fun g hg => (Part.isPlannable_of_read hread hg).group
  refine ⟨fun g hg seed => groupPlan_gives (hplannable g hg) seed,
    fun g hg before value name after hsplit seed => ?_, planPattern_gives hrun,
    fun before value name after hsplit => ?_, fun duplicates hform => ?_⟩
  · have hname : name ∉ addElementVars [] before := hwell.parts _ hg before _ after hsplit
    have hgroup := hplannable g hg
    obtain ⟨elements⟩ := g
    cases hsplit
    exact draftBefore_gives hgroup hname seed
  · exact withItems_gives hrun hsplit (hwell.columns before _ after hsplit)
  · refine (planPattern_gives hrun).imp fun row hrow v n hn hbound hvisible => ?_
    unfold columns
    rw [hform]
    have hscope := List.mem_append.mp (hrow v n hn hbound)
    refine List.mem_filter.mpr ⟨mem_insertNames.mpr hscope, ?_⟩
    rw [hvisible]
    rfl

/-- A text whose optional group assigns a variable that is bound outside, and whose negated group
has a variable of its own. -/
def inward : String :=
  "SELECT * { ?x ?p ?n OPTIONAL { ?n ?q ?m BIND(1 AS ?x) } MINUS { ?x ?q ?z } }"

/-- The text is a query. -/
theorem isAccepted_inward : isAccepted inward = true := by decide +kernel

/-- The text is accepted, its scope is sound on the refilled store, and the rows of its pattern stay
in scope from a seed that binds its first variable. -/
theorem hasSoundScope_of_read_inward :
    ∃ q, Query.read inward = .ok q ∧ HasSoundScope (envOf Store.refilled q) q ∧
      Gives (groupPlan (envOf Store.refilled q) q.pattern
          [some (.iri ⟨"http://example.org/bob"⟩)])
        (StaysInScope (envOf Store.refilled q) q.pattern
          [some (.iri ⟨"http://example.org/bob"⟩)]) := by
  obtain ⟨q, hread⟩ := exists_read_of_isAccepted isAccepted_inward
  have hscope := hasSoundScope_of_read hread Store.refilled
  exact ⟨q, hread, hscope, hscope.groups q.pattern hasPart_pattern _⟩

end RdfStore.Eval
