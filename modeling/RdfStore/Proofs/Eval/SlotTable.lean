import Mathlib.Data.List.Nodup
import RdfStore.Proofs.Eval.Merge
import RdfStore.Proofs.Eval.Scope

/-!
# The table of slots

Each variable of a query stands in its table once, at the place where it first appears. So the slots
are the numbers below the length of the table, each of them that of one variable. Rows with one
place for every slot are the same if they give the same terms to the variables.
-/

set_option autoImplicit false

namespace RdfStore.Eval

open Query Solution

/-! ## No variable stands twice -/

/-- Entering a name does not repeat one. -/
theorem nodup_insertName {names : List String} (h : names.Nodup) (name : String) :
    (insertName names name).Nodup := by
  unfold insertName
  split
  · exact h
  · rename_i hnew
    have hname : name ∉ names := by simpa using hnew
    rw [← List.concat_eq_append]
    exact h.concat hname

/-- Entering names does not repeat one. -/
theorem nodup_insertNames {names : List String} (h : names.Nodup) (more : List String) :
    (insertNames names more).Nodup := by
  unfold insertNames
  induction more generalizing names with
  | nil => exact h
  | cons name rest ih => exact ih (nodup_insertName h name)

mutual

/-- A group enters no name twice. -/
theorem nodup_addGroup {names : Slots} (h : names.Nodup) (g : Group) :
    (addGroup names g).Nodup := by
  match g with
  | .mk elements => exact nodup_addElements h elements

/-- Elements enter no name twice. -/
theorem nodup_addElements {names : Slots} (h : names.Nodup) (elements : List Element) :
    (addElements names elements).Nodup := by
  match elements with
  | [] => exact h
  | element :: rest => exact nodup_addElements (nodup_addElement h element) rest

/-- An element enters no name twice. -/
theorem nodup_addElement {names : Slots} (h : names.Nodup) (element : Element) :
    (addElement names element).Nodup := by
  match element with
  | .triples _ | .data _ => exact nodup_insertNames h _
  | .filter condition => exact nodup_addExpr h condition
  | .optional g | .group g | .minus g => exact nodup_addGroup h g
  | .union branches => exact nodup_addGroups h branches
  | .bind value name => exact nodup_insertName (nodup_addExpr h value) name

/-- Groups enter no name twice. -/
theorem nodup_addGroups {names : Slots} (h : names.Nodup) (groups : List Group) :
    (addGroups names groups).Nodup := by
  match groups with
  | [] => exact h
  | g :: rest => exact nodup_addGroups (nodup_addGroup h g) rest

/-- An expression enters no name twice. -/
theorem nodup_addExpr {names : Slots} (h : names.Nodup) (e : Expr) :
    (addExpr names e).Nodup := by
  match e with
  | .var name => exact nodup_insertName h name
  | .const _ => exact h
  | .binary _ left right => exact nodup_addExpr (nodup_addExpr h left) right
  | .unary _ operand => exact nodup_addExpr h operand
  | .call _ args => exact nodup_addExprs h args
  | .member _ operand items => exact nodup_addExprs (nodup_addExpr h operand) items
  | .exists _ g => exact nodup_addGroup h g

/-- Expressions enter no name twice. -/
theorem nodup_addExprs {names : Slots} (h : names.Nodup) (es : List Expr) :
    (addExprs names es).Nodup := by
  match es with
  | [] => exact h
  | e :: rest => exact nodup_addExprs (nodup_addExpr h e) rest

end

/-- What is added step by step stands once if no step adds a name twice. -/
theorem nodup_foldl {α : Type} {add : Slots → α → Slots}
    (hadd : ∀ names a, names.Nodup → (add names a).Nodup) {names : Slots} (h : names.Nodup)
    (list : List α) : (list.foldl add names).Nodup := by
  induction list generalizing names with
  | nil => exact h
  | cons a rest ih => exact ih (hadd names a h)

/-- A column enters no name twice. -/
theorem nodup_addItem {names : Slots} (h : names.Nodup) (item : SelectItem) :
    (addItem names item).Nodup := by
  cases item with
  | var name => exact nodup_insertName h name
  | expr value name => exact nodup_insertName (nodup_addExpr h value) name

/-- The form of a query enters no name twice. -/
theorem nodup_addForm {names : Slots} (h : names.Nodup) (form : Form) :
    (addForm names form).Nodup := by
  unfold addForm
  split
  · exact nodup_foldl (fun _ item hnames => nodup_addItem hnames item) h _
  · exact nodup_insertNames h _
  · exact h

/-- No variable has two places in the table of a query. -/
theorem nodup_slots (q : Query) : (slots q).Nodup :=
  nodup_foldl (fun _ condition hnames => nodup_addExpr hnames condition.key)
    (nodup_addForm (nodup_insertNames (nodup_addGroup List.nodup_nil q.pattern) _) q.form) _

/-! ## Slots and names -/

/-- Where no name stands twice, a name has the slot at which it stands. -/
theorem slot?_of_getElem? {names : Slots} (h : names.Nodup) {slot : Nat} {name : String}
    (hname : names[slot]? = some name) : names.slot? name = some slot := by
  obtain ⟨other, hother⟩ := slot?_of_mem (List.mem_of_getElem? hname)
  have hsame := (getElem?_of_slot? hother).trans hname.symm
  rw [hother, (List.getElem?_inj (lt_of_slot? hother) h).mp hsame]

/-- The slots of names are the numbers below their count, each that of one name. -/
structure IsNumbering (names : Slots) : Prop where
  exists_slot : ∀ v ∈ names, ∃ n, names.slot? v = some n
  lt_length : ∀ v n, names.slot? v = some n → n < names.length
  exists_name : ∀ n < names.length, ∃ v, names.slot? v = some n
  name_eq : ∀ v n, names.slot? v = some n → names[n]? = some v
  apart : ∀ v w n, names.slot? v = some n → names.slot? w = some n → v = w

/-- A table in which no name is repeated numbers its names. -/
theorem isNumbering_of_nodup {names : Slots} (h : names.Nodup) : IsNumbering names where
  exists_slot _ hv := slot?_of_mem hv
  lt_length _ _ hslot := lt_of_slot? hslot
  exists_name n hn := ⟨names[n], slot?_of_getElem? h (List.getElem?_eq_getElem hn)⟩
  name_eq _ _ hslot := getElem?_of_slot? hslot
  apart _ _ _ hv hw :=
    Option.some.inj ((getElem?_of_slot? hv).symm.trans (getElem?_of_slot? hw))

/-- Rows with one place for every name are the same if they give the names the same terms. -/
theorem eq_iff_value? {names : Slots} (h : names.Nodup) {row other : Solution}
    (hrow : row.length = names.length) (hother : other.length = names.length) :
    row = other ↔ ∀ v, names.value? row v = names.value? other v := by
  constructor
  · rintro rfl v
    rfl
  · intro hvalues
    apply ext_get? (hrow.trans hother.symm)
    intro n
    by_cases hn : n < names.length
    · obtain ⟨v, hv⟩ := (isNumbering_of_nodup h).exists_name n hn
      have hvalue := hvalues v
      unfold Slots.value? at hvalue
      rwa [hv, Option.bind_some, Option.bind_some] at hvalue
    · unfold get?
      rw [List.getElem?_eq_none (by omega), List.getElem?_eq_none (by omega)]

end RdfStore.Eval
