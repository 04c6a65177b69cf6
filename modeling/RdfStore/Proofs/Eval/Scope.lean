import RdfStore.Eval.Join
import RdfStore.Query.Scope

/-!
# Variables with slots

The variables of a group are those of its parts, whatever names were there before; this goes
for those that it can bind and for those that it mentions. A group is plannable when each
variable that it mentions has a slot and no pattern has a blank node of the template kind;
what such a group needs for its plan is then there at every depth.
-/

set_option autoImplicit false

namespace RdfStore

open Query

namespace Query

/-- Adding a name adds it and nothing else. -/
theorem mem_insertName {names : List String} {name v : String} :
    v ∈ insertName names name ↔ v ∈ names ∨ v = name := by
  unfold insertName
  split
  · rename_i h
    have hn : name ∈ names := by simpa using h
    constructor
    · exact Or.inl
    · rintro (hv | rfl)
      · exact hv
      · exact hn
  · simp only [List.mem_append, List.mem_singleton]

/-- Adding names adds them and nothing else. -/
theorem mem_insertNames {names more : List String} {v : String} :
    v ∈ insertNames names more ↔ v ∈ names ∨ v ∈ more := by
  unfold insertNames
  induction more generalizing names with
  | nil => simp only [List.foldl_nil, List.not_mem_nil, or_false]
  | cons name rest ih =>
    rw [List.foldl_cons, ih, mem_insertName, List.mem_cons, or_assoc]

/-! ## The variables that parts can bind -/

mutual

/-- A group adds the variables that it can bind, whatever was there before. -/
theorem mem_addVars {names : List String} (g : Group) {v : String} :
    v ∈ g.addVars names ↔ v ∈ names ∨ v ∈ g.addVars [] := by
  match g with
  | .mk elements => exact mem_addElementVars elements

/-- Elements add their own variables to those that are there. -/
theorem mem_addElementVars {names : List String} (elements : List Element) {v : String} :
    v ∈ addElementVars names elements ↔ v ∈ names ∨ v ∈ addElementVars [] elements := by
  match elements with
  | [] => simp only [addElementVars, List.not_mem_nil, or_false]
  | element :: rest =>
    rw [addElementVars, addElementVars, mem_addElementVars rest, mem_addVarsOf element,
      @mem_addElementVars (element.addVars []) rest v, or_assoc]

/-- An element adds its own variables to those that are there. -/
theorem mem_addVarsOf {names : List String} (element : Element) {v : String} :
    v ∈ element.addVars names ↔ v ∈ names ∨ v ∈ element.addVars [] := by
  match element with
  | .triples _ | .data _ => simp only [Element.addVars, mem_insertNames, List.not_mem_nil, false_or]
  | .filter _ | .minus _ => simp only [Element.addVars, List.not_mem_nil, or_false]
  | .optional group | .group group => exact mem_addVars group
  | .union branches => exact mem_addBranchVars branches
  | .bind _ name => simp only [Element.addVars, mem_insertName, List.not_mem_nil, false_or]

/-- The branches of a union add their own variables to those that are there. -/
theorem mem_addBranchVars {names : List String} (branches : List Group) {v : String} :
    v ∈ addBranchVars names branches ↔ v ∈ names ∨ v ∈ addBranchVars [] branches := by
  match branches with
  | [] => simp only [addBranchVars, List.not_mem_nil, or_false]
  | branch :: rest =>
    rw [addBranchVars, addBranchVars, mem_addBranchVars rest, mem_addVars branch,
      @mem_addBranchVars (branch.addVars []) rest v, or_assoc]

end

/-- The patterns that an element consists of. -/
def Element.patterns : Element → List Pattern
  | .triples patterns => patterns
  | _ => []

/-- The variables of a pattern are among those of the element that it stands in. -/
theorem mem_addVars_of_mem_patterns {element : Element} {p : Pattern} (hp : p ∈ element.patterns)
    {v : String} (hv : v ∈ p.vars) : v ∈ element.addVars [] := by
  cases element with
  | triples patterns => exact mem_insertNames.mpr (Or.inr (List.mem_flatMap.mpr ⟨p, hp, hv⟩))
  | filter _ | «optional» _ | union _ | group _ | minus _ | bind _ _ | data _ =>
    exact absurd hp List.not_mem_nil

end Query

namespace Eval

/-! ## The variables that parts mention -/

mutual

/-- A group adds its own variables, whatever was there before. -/
theorem mem_addGroup {names : Slots} (g : Group) {v : String} :
    v ∈ addGroup names g ↔ v ∈ names ∨ v ∈ addGroup [] g := by
  match g with
  | .mk elements => exact mem_addElements elements

/-- Elements add their own variables, whatever was there before. -/
theorem mem_addElements {names : Slots} (elements : List Element) {v : String} :
    v ∈ addElements names elements ↔ v ∈ names ∨ v ∈ addElements [] elements := by
  match elements with
  | [] => simp only [addElements, List.not_mem_nil, or_false]
  | element :: rest =>
    rw [addElements, addElements, mem_addElements rest, mem_addElement element,
      @mem_addElements (addElement [] element) rest v, or_assoc]

/-- An element adds its own variables, whatever was there before. -/
theorem mem_addElement {names : Slots} (element : Element) {v : String} :
    v ∈ addElement names element ↔ v ∈ names ∨ v ∈ addElement [] element := by
  match element with
  | .triples patterns =>
    simp only [addElement, mem_insertNames, List.not_mem_nil, false_or]
  | .filter condition => exact mem_addExpr condition
  | .optional group | .group group | .minus group => exact mem_addGroup group
  | .union branches => exact mem_addGroups branches
  | .bind value name =>
    simp only [addElement, mem_insertName]
    rw [mem_addExpr value, or_assoc]
  | .data block => simp only [addElement, mem_insertNames, List.not_mem_nil, false_or]

/-- Groups add their own variables, whatever was there before. -/
theorem mem_addGroups {names : Slots} (groups : List Group) {v : String} :
    v ∈ addGroups names groups ↔ v ∈ names ∨ v ∈ addGroups [] groups := by
  match groups with
  | [] => simp only [addGroups, List.not_mem_nil, or_false]
  | group :: rest =>
    rw [addGroups, addGroups, mem_addGroups rest, mem_addGroup group,
      @mem_addGroups (addGroup [] group) rest v, or_assoc]

/-- An expression adds its own variables, whatever was there before. -/
theorem mem_addExpr {names : Slots} (e : Expr) {v : String} :
    v ∈ addExpr names e ↔ v ∈ names ∨ v ∈ addExpr [] e := by
  match e with
  | .var name => simp only [addExpr, mem_insertName, List.not_mem_nil, false_or]
  | .const _ => simp only [addExpr, List.not_mem_nil, or_false]
  | .binary _ left right =>
    rw [addExpr, addExpr, mem_addExpr right, mem_addExpr left,
      @mem_addExpr (addExpr [] left) right v, or_assoc]
  | .unary _ operand => exact mem_addExpr operand
  | .call _ args => exact mem_addExprs args
  | .member _ operand items =>
    rw [addExpr, addExpr, mem_addExprs items, mem_addExpr operand,
      @mem_addExprs (addExpr [] operand) items v, or_assoc]
  | .exists _ group => exact mem_addGroup group

/-- Expressions add their own variables, whatever was there before. -/
theorem mem_addExprs {names : Slots} (es : List Expr) {v : String} :
    v ∈ addExprs names es ↔ v ∈ names ∨ v ∈ addExprs [] es := by
  match es with
  | [] => simp only [addExprs, List.not_mem_nil, or_false]
  | e :: rest =>
    rw [addExprs, addExprs, mem_addExprs rest, mem_addExpr e,
      @mem_addExprs (addExpr [] e) rest v, or_assoc]

end

/-! ## What can be planned -/

/-- A group all of whose variables have slots and none of whose patterns, at any depth, has a
blank node of the template kind. -/
structure IsPlannable (names : Slots) (g : Group) : Prop where
  covered : ∀ v ∈ addGroup [] g, v ∈ names
  unlabelled : g.labels = []

/-- A slot carries the name that it was found for. -/
theorem getElem?_of_slot? {names : Slots} {name : String} {slot : Nat}
    (h : names.slot? name = some slot) : names[slot]? = some name := by
  unfold Slots.slot? at h
  obtain ⟨hlt, heq, -⟩ := List.idxOf?_eq_some_iff.mp h
  rw [List.getElem?_eq_getElem hlt, heq]

/-- A variable's slot is in the table. -/
theorem lt_of_slot? {names : Slots} {name : String} {slot : Nat}
    (h : names.slot? name = some slot) : slot < names.length :=
  (List.getElem?_eq_some_iff.mp (getElem?_of_slot? h)).1

/-- A variable among the names has a slot. -/
theorem slot?_of_mem {names : Slots} {name : String} (h : name ∈ names) :
    ∃ slot, names.slot? name = some slot :=
  Option.isSome_iff_exists.mp (List.isSome_idxOf?.mpr h)

/-- A variable among the names gets its slot. -/
theorem slotOf_of_mem {names : Slots} {name : String} (h : name ∈ names) :
    ∃ slot, names.slotOf name = .ok slot := by
  obtain ⟨slot, hs⟩ := slot?_of_mem h
  refine ⟨slot, ?_⟩
  unfold Slots.slotOf
  rw [hs]

/-- A slot that is looked up is the slot of the variable. -/
theorem slot?_of_slotOf {names : Slots} {name : String} {slot : Nat}
    (h : names.slotOf name = .ok slot) : names.slot? name = some slot := by
  unfold Slots.slotOf at h
  split at h
  · rename_i found
    cases h
    exact found
  · cases h

/-- Variables among the names get their slots. -/
theorem slotsOf_of_subset {names : Slots} {more : List String} (h : ∀ v ∈ more, v ∈ names) :
    ∃ slots, names.slotsOf more = .ok slots := by
  induction more with
  | nil => exact ⟨[], rfl⟩
  | cons name rest ih =>
    obtain ⟨slot, hs⟩ := slotOf_of_mem (h name List.mem_cons_self)
    obtain ⟨slots, hr⟩ := ih fun v hv => h v (List.mem_cons_of_mem _ hv)
    refine ⟨slot :: slots, ?_⟩
    rw [Slots.slotsOf, hs, hr]
    rfl

/-- A place without a label whose variable has a slot stands at a position. -/
theorem ofPlace_of_covered {names : Slots} {place : Place}
    (hv : ∀ v, place.var? = some v → v ∈ names) (hl : place.label? = none) :
    ∃ position, Position.ofPlace names place = .ok position := by
  cases place with
  | var name =>
    obtain ⟨slot, hs⟩ := slotOf_of_mem (hv name rfl)
    exact ⟨.slot slot, by rw [Position.ofPlace, hs]; rfl⟩
  | term t => exact ⟨.constant t, rfl⟩
  | blank label => cases hl

/-- A pattern can be scanned when its variables have slots and it has no labels. -/
theorem ofPattern_of_covered {names : Slots} {p : Pattern} (hv : ∀ v ∈ p.vars, v ∈ names)
    (hl : p.places.filterMap Place.label? = []) :
    ∃ scan, Scan.ofPattern names p = .ok scan := by
  have hplace : ∀ place ∈ p.places, ∃ position, Position.ofPlace names place = .ok position := by
    intro place hp
    apply ofPlace_of_covered
    · intro v hpv
      exact hv v (List.mem_filterMap.mpr ⟨place, hp, hpv⟩)
    · exact List.filterMap_eq_nil_iff.mp hl place hp
  obtain ⟨s, hs⟩ := hplace p.subject (by simp only [Pattern.places, List.mem_cons, true_or])
  obtain ⟨q, hq⟩ := hplace p.predicate
    (by simp only [Pattern.places, List.mem_cons, true_or, or_true])
  obtain ⟨o, ho⟩ := hplace p.object
    (by simp only [Pattern.places, List.mem_cons, true_or, or_true])
  refine ⟨⟨s, q, o⟩, ?_⟩
  rw [Scan.ofPattern, hs, hq, ho]
  rfl

end Eval

end RdfStore
