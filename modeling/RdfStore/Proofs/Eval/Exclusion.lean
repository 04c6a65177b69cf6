import RdfStore.Proofs.Eval.BoundSlots
import RdfStore.Proofs.Eval.Conditions
import RdfStore.Proofs.Eval.Reordering

/-!
# Excluded rows

`MINUS` finds the solutions of a group once, from nothing, and drops a row that agrees with one of
them on a variable that both bind. `NOT EXISTS` looks for a solution of the group from the row
itself. For a group of patterns the solutions from a row are the join of the row with the solutions
from nothing, and these bind the same variables all of them: those of the patterns. So the two keep
the same rows, as long as the row binds a variable of the group; a row that binds none is always
kept by `MINUS`.
-/

set_option autoImplicit false

namespace RdfStore.Eval

open Query Solution

variable {env : Env} {row : Solution}

/-! ## Joins and exclusion -/

/-- The solutions that a row of the table can be merged with are those that are left. -/
theorem joinTable_eq_nil_iff {table : List Solution} :
    joinTable table row = [] ↔ ∀ other ∈ table, compatible row other = false := by
  unfold joinTable
  rw [List.filterMap_eq_nil_iff]
  refine forall₂_congr fun other _ => ?_
  unfold merge?
  by_cases h : compatible row other = true <;> simp [h]

/-- A table all of whose rows share a slot with a row excludes it when it can be joined with it. -/
theorem excludedBy_of_sharing {table : List Solution}
    (h : ∀ other ∈ table, sharesSlot row other = true) :
    excludedBy table row = true ↔ joinTable table row ≠ [] := by
  unfold excludedBy
  rw [ne_eq, joinTable_eq_nil_iff, List.any_eq_true]
  simp only [not_forall]
  constructor
  · rintro ⟨other, hother, hagrees⟩
    refine ⟨other, hother, ?_⟩
    simpa [h other hother] using hagrees
  · rintro ⟨other, hother, hagrees⟩
    refine ⟨other, hother, ?_⟩
    simpa [h other hother] using hagrees

/-- A table none of whose rows shares a slot with a row does not exclude it. -/
theorem not_excludedBy {table : List Solution}
    (h : ∀ other ∈ table, sharesSlot row other = false) : excludedBy table row = false := by
  unfold excludedBy
  rw [List.any_eq_false]
  intro other hother
  simp [h other hother]

/-! ## Groups of patterns -/

/-- A group of triple blocks. -/
def patternGroup (blocks : List (List Pattern)) : Group := .mk (blocks.map .triples)

variable {blocks : List (List Pattern)}

/-- Blocks of triples are scanned together, in the order that the join takes. -/
theorem elementRows_triples (blocks : List (List Pattern)) (bound : List String)
    (waiting : List Pattern) (rows : Rows ExecutionError Solution) :
    elementRows env (blocks.map .triples) bound waiting rows =
      scanRows env (joinOrder bound (waiting ++ blocks.flatten)) rows := by
  induction blocks generalizing waiting with
  | nil => simp [elementRows]
  | cons block rest ih => simp [elementRows, ih]

/-- A group of patterns scans them one after the other. -/
theorem groupRows_patternGroup (blocks : List (List Pattern)) (seed : Solution) :
    groupRows env (patternGroup blocks) seed =
      scanRows env (joinOrder (env.names.boundNames seed) blocks.flatten) (.ofList [seed]) := by
  rw [patternGroup, groupRows, elementRows_triples, conditions_triples, List.nil_append]
  simp only [List.all_nil, Rows.filter_true]
  cases scanRows env _ (.ofList [seed]) <;> rfl

/-- A pattern without a scan fails the chain that it stands in. -/
theorem scanRows_error {patterns : List Pattern} {p : Pattern} (hp : p ∈ patterns)
    (h : ¬ IsScannable env.names p) (rows : Rows ExecutionError Solution) :
    ∃ e, scanRows env patterns rows = .error e := by
  induction patterns generalizing rows with
  | nil => exact absurd hp List.not_mem_nil
  | cons q rest ih =>
    rw [scanRows]
    cases hq : Scan.ofPattern env.names q with
    | error e => exact ⟨e, rfl⟩
    | ok scan =>
      rcases List.mem_cons.mp hp with rfl | hp
      · exact absurd ⟨scan, hq⟩ h
      · exact ih hp _

/-- The variables of a group of patterns are those of its patterns. -/
theorem mem_vars_patternGroup {v : String} :
    v ∈ (patternGroup blocks).vars ↔ ∃ p ∈ blocks.flatten, v ∈ p.vars := by
  show v ∈ addElementVars [] (blocks.map .triples) ↔ _
  induction blocks with
  | nil => simp [addElementVars]
  | cons block rest ih =>
    rw [List.map_cons, addElementVars, mem_addElementVars, ih, Element.addVars, mem_insertNames,
      List.mem_flatMap, List.flatten_cons]
    simp only [List.not_mem_nil, false_or, List.mem_append, or_and_right, exists_or]

/-- A row gives a term to a variable of a group. -/
def BindsVariable (names : Slots) (g : Group) (row : Solution) : Prop :=
  ∃ v ∈ g.vars, (names.value? row v).isSome = true

instance (names : Slots) (g : Group) (row : Solution) : Decidable (BindsVariable names g row) :=
  inferInstanceAs (Decidable (∃ v ∈ g.vars, _))

/-- The solutions of a group of patterns from a seed. -/
def patternSolutions (env : Env) (blocks : List (List Pattern)) (seed : Solution) :
    List Solution :=
  joinSolutions env (joinOrder (env.names.boundNames seed) blocks.flatten) [seed]

section Scannable

variable (h : ∀ p ∈ blocks.flatten, IsScannable env.names p)

include h

/-- A group of patterns gives the solutions of all its patterns together. -/
theorem groupRows_eq_patternSolutions (seed : Solution) :
    groupRows env (patternGroup blocks) seed =
      .ok (.ofList (patternSolutions env blocks seed)) := by
  rw [groupRows_patternGroup, joinedRows_ofList env h]
  rfl

/-- From a row a group of patterns has the solutions that the row is joined with from nothing. -/
theorem patternSolutions_perm (hs : env.store.IsCoherent) (row : Solution) :
    (patternSolutions env blocks row).Perm
      (joinTable (patternSolutions env blocks (.unbound env.names.length)) row) := by
  have hseeded := patternGroup_sameRows hs blocks row
  have halone := patternGroup_sameRows hs blocks (.unbound env.names.length)
  rw [← patternGroup, table_ofList (groupRows_eq_patternSolutions h _)] at hseeded halone
  -- joining with one pattern after the other may as well start from nothing
  have hjoined := joinAll_flatMap (blocks.flatten.map (patternTable env))
    [.unbound env.names.length] [row]
  rw [joinTable_unbound] at hjoined
  rw [hjoined] at hseeded
  generalize joinAll (blocks.flatten.map (patternTable env)) [.unbound env.names.length] = tables
    at hseeded halone
  cases halone with
  | ok htable =>
    rw [Except.map, List.flatMap_singleton] at hseeded
    cases hseeded with
    | ok hrows => exact hrows.trans (joinTable_perm row htable).symm

/-- The solutions from nothing bind the variables of the patterns and no others. -/
theorem binds_patternSolutions {other : Solution}
    (hother : other ∈ patternSolutions env blocks (.unbound env.names.length)) (n : Nat) :
    other.Binds n ↔ IsSlotOf env.names (patternGroup blocks).vars n := by
  have hrows := groupRows_eq_patternSolutions h (.unbound env.names.length)
  constructor
  · intro hn
    have hgrows := groupRows_grows env _ _ hrows
    exact (hgrows.mem_of_toExcept (Rows.toExcept_ofList _) other hother).isSlotOf hn
  · rintro ⟨v, hv, hslot⟩
    obtain ⟨p, hp, hvp⟩ := mem_vars_patternGroup.mp hv
    obtain ⟨block, hblock, hpb⟩ := List.mem_flatten.mp hp
    have hbinds := groupRows_binds hrows (List.mem_map.mpr ⟨block, hblock, rfl⟩) hpb hvp hslot
    exact hbinds.mem_of_toExcept (Rows.toExcept_ofList _) other hother

/-- Rows share slots with the solutions from nothing where they bind variables of the patterns. -/
theorem sharesSlot_patternSolutions {other : Solution}
    (hother : other ∈ patternSolutions env blocks (.unbound env.names.length)) :
    sharesSlot row other = true ↔ BindsVariable env.names (patternGroup blocks) row := by
  rw [sharesSlot_iff]
  constructor
  · rintro ⟨n, hrow, hn⟩
    obtain ⟨v, hv, hslot⟩ := (binds_patternSolutions h hother n).mp hn
    refine ⟨v, hv, ?_⟩
    rw [Slots.value?, hslot]
    exact hrow
  · rintro ⟨v, hv, hvalue⟩
    obtain ⟨t, ht⟩ := Option.isSome_iff_exists.mp hvalue
    obtain ⟨n, hslot, hn⟩ := Option.bind_eq_some_iff.mp ht
    refine ⟨n, Option.isSome_iff_exists.mpr ⟨t, hn⟩, ?_⟩
    exact (binds_patternSolutions h hother n).mpr ⟨v, hv, hslot⟩

end Scannable

/-! ## Kept rows -/

/-- `MINUS` on top of a row loads the solutions of its group and keeps the row or drops it. -/
theorem planRows_minus (g : Group) (row : Solution) :
    planRows (groupPlan env (.mk [.minus g]) row) =
      ((groupRows env g (.unbound env.names.length)).bind Rows.toExcept).map fun table =>
        keepUnlessExcluded table row := by
  generalize htable : (groupRows env g (.unbound env.names.length)).bind Rows.toExcept = table
  have helements : elementRows env [.minus g] (env.names.boundNames row) [] (.ofList [row]) =
      .ok (tableRows table keepUnlessExcluded (.ofList [row])) := by
    rw [elementRows, joinOrder_nil, scanRows, Except.bind, htable, elementRows,
      List.flatMap_nil, joinOrder_nil, scanRows]
  rw [planRows_eq, groupPlan_rows, groupRows, helements]
  show ((tableRows table keepUnlessExcluded (.ofList [row])).filter fun _ => true).toExcept = _
  rw [Rows.filter_true]
  cases table with
  | error e => rfl
  | ok table =>
    rw [tableRows, Rows.toExcept_flatMap_ok, Rows.toExcept_ofList]
    exact congrArg Except.ok (List.flatMap_singleton _ row)

/-- A row passes `NOT EXISTS` where looking for a solution of the group finds none. -/
theorem passes_notExists (g : Group) (row : Solution) :
    passes env (.exists true g) row = true ↔
      (groupRows env g row).bind Rows.isInhabited = .ok false := by
  have hvalue : passes env (.exists true g) row =
      (((((groupRows env g row).bind Rows.isInhabited).toOption).map fun found =>
        Truth.toTerm (found != true)).bind Truth.ofTerm? == some true) := by
    unfold passes
    rw [planValue_eq, valueAt]
    rfl
  rw [hvalue]
  cases (groupRows env g row).bind Rows.isInhabited with
  | error e => simp [Except.toOption]
  | ok found => cases found <;> simp [Except.toOption, Truth.ofTerm?_toTerm]

/-- The patterns of a plannable group can be scanned. -/
theorem isScannable_of_isPlannable (h : IsPlannable env.names (patternGroup blocks)) :
    ∀ p ∈ blocks.flatten, IsScannable env.names p := by
  intro p hp
  obtain ⟨block, hblock, hpb⟩ := List.mem_flatten.mp hp
  have helement : Element.triples block ∈ blocks.map .triples :=
    List.mem_map.mpr ⟨block, hblock, rfl⟩
  apply ofPattern_of_covered
  · intro v hv
    refine h.covered v (Part.addElement_subset helement ?_)
    exact mem_insertNames.mpr (Or.inr (List.mem_flatMap.mpr ⟨p, hpb, hv⟩))
  · have hlabels : elementLabels (blocks.map .triples) = [] := h.unlabelled
    rw [Part.elementLabels_eq_flatMap] at hlabels
    have hblockLabels := List.flatMap_eq_nil_iff.mp hlabels _ helement
    exact List.flatMap_eq_nil_iff.mp hblockLabels p hpb

/-- A row that binds a variable of a group of patterns is kept where it passes `NOT EXISTS`. -/
theorem keepUnlessExcluded_of_binds (hs : env.store.IsCoherent)
    (h : ∀ p ∈ blocks.flatten, IsScannable env.names p)
    (hbinds : BindsVariable env.names (patternGroup blocks) row) :
    keepUnlessExcluded (patternSolutions env blocks (.unbound env.names.length)) row =
      if passes env (.exists true (patternGroup blocks)) row then [row] else [] := by
  have hexcluded := excludedBy_of_sharing fun other hother =>
    (sharesSlot_patternSolutions h hother).mpr hbinds
  have hjoin := patternSolutions_perm h hs row
  have hpasses : passes env (.exists true (patternGroup blocks)) row = true ↔
      patternSolutions env blocks row = [] := by
    rw [passes_notExists, groupRows_eq_patternSolutions h, Except.bind, isInhabited_ofList]
    simp
  unfold keepUnlessExcluded
  by_cases hnone : patternSolutions env blocks row = []
  · rw [hnone, List.nil_perm] at hjoin
    rw [if_neg fun hex => hexcluded.mp hex hjoin, if_pos (hpasses.mpr hnone)]
  · have hsome :
        joinTable (patternSolutions env blocks (.unbound env.names.length)) row ≠ [] := by
      intro hnil
      rw [hnil, List.perm_nil] at hjoin
      exact hnone hjoin
    rw [if_pos (hexcluded.mpr hsome), if_neg fun hp => hnone (hpasses.mp hp)]

/-- A row that binds no variable of a group of patterns is kept. -/
theorem keepUnlessExcluded_of_not_binds (h : ∀ p ∈ blocks.flatten, IsScannable env.names p)
    (hfree : ¬ BindsVariable env.names (patternGroup blocks) row) :
    keepUnlessExcluded (patternSolutions env blocks (.unbound env.names.length)) row = [row] := by
  have hexcluded := not_excludedBy fun other hother =>
    Bool.eq_false_iff.mpr fun hshares => hfree ((sharesSlot_patternSolutions h hother).mp hshares)
  unfold keepUnlessExcluded
  rw [hexcluded, if_neg Bool.false_ne_true]

/-- `MINUS` keeps a row. -/
def IsKeptByMinus (env : Env) (g : Group) (row : Solution) : Prop :=
  planRows (groupPlan env (.mk [.minus g]) row) = .ok [row]

/-- On every store, for every row and every group of triple patterns: when the row binds a variable
of the group, `MINUS` keeps it exactly where it passes `NOT EXISTS`, and when it binds none, `MINUS`
keeps it. With a plannable group `MINUS` never fails: what it does not keep it drops. -/
theorem isKeptByMinus_iff (hs : env.store.IsReachable) (blocks : List (List Pattern))
    (row : Solution) :
    (BindsVariable env.names (patternGroup blocks) row →
      (IsKeptByMinus env (patternGroup blocks) row ↔
        passes env (.exists true (patternGroup blocks)) row = true)) ∧
    (IsPlannable env.names (patternGroup blocks) →
      (¬ BindsVariable env.names (patternGroup blocks) row →
        IsKeptByMinus env (patternGroup blocks) row) ∧
      (¬ IsKeptByMinus env (patternGroup blocks) row →
        planRows (groupPlan env (.mk [.minus (patternGroup blocks)]) row) = .ok [])) := by
  unfold IsKeptByMinus
  rw [planRows_minus]
  refine ⟨fun hbinds => ?_, fun hplannable => ?_⟩
  · by_cases h : ∀ p ∈ blocks.flatten, IsScannable env.names p
    · rw [table_ofList (groupRows_eq_patternSolutions h _), Except.map,
        keepUnlessExcluded_of_binds hs.isCoherent h hbinds]
      split <;> simp [*]
    · -- a pattern that cannot be scanned fails both
      simp only [not_forall] at h
      obtain ⟨p, hp, hscan⟩ := h
      have hfails : ∀ seed, ∃ e, groupRows env (patternGroup blocks) seed = .error e := by
        intro seed
        rw [groupRows_patternGroup]
        exact scanRows_error ((joinOrder_perm _ _).mem_iff.mpr hp) hscan _
      obtain ⟨e, he⟩ := hfails (.unbound env.names.length)
      obtain ⟨e', he'⟩ := hfails row
      rw [passes_notExists, he, he']
      simp [Except.bind, Except.map]
  · have h := isScannable_of_isPlannable hplannable
    rw [table_ofList (groupRows_eq_patternSolutions h _), Except.map]
    refine ⟨fun hfree => ?_, fun hdropped => ?_⟩
    · rw [keepUnlessExcluded_of_not_binds h hfree]
    · unfold keepUnlessExcluded at hdropped ⊢
      split at hdropped
      · rw [if_pos ‹_›]
      · exact absurd rfl hdropped

/-- With a pattern for each of two acquaintances, a row that binds the first person is kept where it
passes `NOT EXISTS`, and one that binds a variable beside the patterns is kept. -/
theorem isKeptByMinus_iff_acquaintances :
    let env : Env := ⟨Store.refilled, ["x", "y", "z", "w"]⟩
    let bob : Term := .iri ⟨"http://example.org/bob"⟩
    let g := patternGroup [acquaintances]
    env.store.IsReachable ∧ IsPlannable env.names g ∧
      BindsVariable env.names g [some bob, none, none, none] ∧
      (IsKeptByMinus env g [some bob, none, none, none] ↔
        passes env (.exists true g) [some bob, none, none, none] = true) ∧
      ¬ BindsVariable env.names g [none, none, none, some bob] ∧
      IsKeptByMinus env g [none, none, none, some bob] := by
  intro env bob g
  have hs : env.store.IsReachable := ⟨_, _, rfl⟩
  have hplannable : IsPlannable env.names g := ⟨by decide, by decide⟩
  have hbinds : BindsVariable env.names g [some bob, none, none, none] := by decide
  have hfree : ¬ BindsVariable env.names g [none, none, none, some bob] := by decide
  refine ⟨hs, hplannable, hbinds, ?_, hfree, ?_⟩
  · exact (isKeptByMinus_iff hs [acquaintances] [some bob, none, none, none]).1 hbinds
  · exact ((isKeptByMinus_iff hs [acquaintances] _).2 hplannable).1 hfree

end RdfStore.Eval
