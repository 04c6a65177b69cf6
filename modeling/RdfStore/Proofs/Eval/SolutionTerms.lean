import RdfStore.Proofs.Database.Output
import RdfStore.Proofs.Eval.GroupMeaning
import RdfStore.Proofs.Eval.Growth
import RdfStore.Proofs.Query.Ingredients
import RdfStore.Proofs.Value.TermValues

/-!
# Solutions have well-formed terms

A solution takes its terms from stored triples, from inline data and from the values of
expressions, and all of these are well-formed for a query that was read and a store of well-formed
triples.
-/

set_option autoImplicit false

namespace RdfStore.Eval

open Query

/-! ## Solutions -/

namespace Solution

/-- All terms of a solution are well-formed. -/
def IsWellFormed (row : Solution) : Prop := ∀ n t, row.get? n = some t → t.IsWellFormed

variable {row other : Solution} {t : Term}

/-- A row that binds nothing binds no term that is not well formed. -/
theorem isWellFormed_unbound (width : Nat) : (unbound width).IsWellFormed := by
  intro n t h
  rw [get?_unbound] at h
  cases h

/-- Binding a well-formed term keeps all terms of a row well formed. -/
theorem IsWellFormed.bind (h : row.IsWellFormed) (ht : t.IsWellFormed) (slot : Nat) :
    (row.bind slot t).IsWellFormed := by
  intro n u hu
  rw [get?_bind] at hu
  split at hu
  · cases hu
    exact ht
  · exact h n u hu

/-- Merging brings in no new terms. -/
theorem IsWellFormed.merge? {merged : Solution} (h : row.IsWellFormed) (h' : other.IsWellFormed)
    (hmerged : Solution.merge? row other = some merged) : merged.IsWellFormed := by
  simp only [Solution.merge?, Option.ite_none_right_eq_some] at hmerged
  obtain ⟨-, hmerged⟩ := hmerged
  cases hmerged
  intro n t ht
  rw [get?_overlay, Option.or_eq_some_iff] at ht
  rcases ht with ht | ⟨-, ht⟩
  · exact h n t ht
  · exact h' n t ht

/-- The slots that are kept have their terms. -/
theorem get?_project (slots : List Nat) (row : Solution) (n : Nat) :
    (row.project slots).get? n = if slots.contains n then row.get? n else none := by
  unfold project get?
  rw [List.getElem?_map, List.getElem?_zipIdx]
  cases row[n]? with
  | none => simp
  | some entry =>
    simp only [Option.map_some, Nat.zero_add, Option.join_some]

/-- A projection brings in no new terms. -/
theorem IsWellFormed.project (h : row.IsWellFormed) (slots : List Nat) :
    (row.project slots).IsWellFormed := by
  intro n t ht
  rw [get?_project] at ht
  split at ht
  · exact h n t ht
  · cases ht

end Solution

/-- All solutions have well-formed terms only. -/
abbrev AreWellFormed (rows : List Solution) : Prop := ∀ row ∈ rows, row.IsWellFormed

/-! ## Values -/

namespace Valuation

/-- At a solution of well-formed terms the value is well-formed, if there is one. -/
def IsWellFormed (v : Valuation) : Prop :=
  ∀ row : Solution, row.IsWellFormed → ∀ t, v row = some t → t.IsWellFormed

variable {row : Solution} {t : Term}

/-- A variable is worth a term of the row. -/
theorem isWellFormed_var (names : Slots) (name : String) : (var names name).IsWellFormed := by
  intro row hrow t ht
  obtain ⟨slot, -, ht⟩ := Option.bind_eq_some_iff.mp ht
  exact hrow slot t ht

/-- An operator gives a truth value or a number. -/
theorem isWellFormed_binary (op : BinaryOp) (left right : Valuation) :
    (binary op left right).IsWellFormed := by
  intro row _ t ht
  cases op with
  | or | and =>
    obtain ⟨b, -, rfl⟩ := Option.map_eq_some_iff.mp ht
    exact Truth.isWellFormed_toTerm b
  | compare c =>
    obtain ⟨a, -, ht⟩ := Option.bind_eq_some_iff.mp ht
    obtain ⟨b, -, ht⟩ := Option.bind_eq_some_iff.mp ht
    obtain ⟨holds, -, ht⟩ := Option.bind_eq_some_iff.mp ht
    cases ht
    exact Truth.isWellFormed_toTerm holds
  | calculate op =>
    obtain ⟨a, -, ht⟩ := Option.bind_eq_some_iff.mp ht
    obtain ⟨b, -, ht⟩ := Option.bind_eq_some_iff.mp ht
    obtain ⟨n, -, ht⟩ := Option.bind_eq_some_iff.mp ht
    cases ht
    exact Numeric.isWellFormed_toTerm n

/-- An operator with one operand gives a well-formed term. -/
theorem isWellFormed_unary (op : UnaryOp) (operand : Valuation) :
    (unary op operand).IsWellFormed := by
  intro row _ t ht
  obtain ⟨a, -, ht⟩ := Option.bind_eq_some_iff.mp ht
  cases op with
  | not =>
    obtain ⟨b, -, ht⟩ := Option.bind_eq_some_iff.mp ht
    cases ht
    exact Truth.isWellFormed_toTerm _
  | plus =>
    obtain ⟨n, -, ht⟩ := Option.bind_eq_some_iff.mp ht
    cases ht
    exact Numeric.isWellFormed_toTerm n
  | minus =>
    obtain ⟨n, -, ht⟩ := Option.bind_eq_some_iff.mp ht
    obtain ⟨m, -, ht⟩ := Option.bind_eq_some_iff.mp ht
    cases ht
    exact Numeric.isWellFormed_toTerm m

/-- Membership gives a well-formed term. -/
theorem isWellFormed_member (negated : Bool) (operand : Valuation) (items : List Valuation) :
    (member negated operand items).IsWellFormed := by
  intro row _ t ht
  obtain ⟨a, -, ht⟩ := Option.bind_eq_some_iff.mp ht
  obtain ⟨b, -, ht⟩ := Option.bind_eq_some_iff.mp ht
  cases ht
  exact Truth.isWellFormed_toTerm _

/-- A condition of existence gives a well-formed term. -/
theorem isWellFormed_exists (negated : Bool) (isFound : Solution → Option Bool) :
    («exists» negated isFound).IsWellFormed := by
  intro row _ t ht
  obtain ⟨b, -, rfl⟩ := Option.map_eq_some_iff.mp ht
  exact Truth.isWellFormed_toTerm _

/-- The first value that there is is well formed if each is. -/
theorem isWellFormed_of_first? {args : List Valuation} (h : ∀ v ∈ args, v.IsWellFormed)
    (hrow : row.IsWellFormed) (ht : first? row args = some t) : t.IsWellFormed := by
  induction args with
  | nil => cases ht
  | cons v rest ih =>
    rw [first?, Option.or_eq_some_iff] at ht
    rcases ht with ht | ⟨-, ht⟩
    · exact h v List.mem_cons_self row hrow t ht
    · exact ih (fun w hw => h w (List.mem_cons_of_mem _ hw)) ht

/-- A function gives one of its arguments, a truth value, or what it makes of their values. -/
theorem isWellFormed_call (f : Function) {args : List Valuation}
    (h : ∀ v ∈ args, v.IsWellFormed) : (call f args).IsWellFormed := by
  intro row hrow t ht
  unfold call at ht
  split at ht
  · cases ht
    exact Truth.isWellFormed_toTerm _
  · obtain ⟨holds, -, ht⟩ := Option.bind_eq_some_iff.mp ht
    split at ht
    · exact h _ (by simp) row hrow t ht
    · exact h _ (by simp) row hrow t ht
  · exact isWellFormed_of_first? h hrow ht
  · obtain ⟨values, hvalues, ht⟩ := Option.bind_eq_some_iff.mp ht
    refine Builtin.isWellFormed_of_value? (fun value hvalue => ?_) ht
    obtain ⟨v, hv, hvalue⟩ := exists_of_mem_mapM hvalues value hvalue
    exact h v hv row hrow value hvalue

end Valuation

/-! ## Joins -/

section Joins

variable {env : Env} {row : Solution} {rows : List Solution}

/-- Assigning a well-formed value keeps all terms of a row well formed. -/
theorem isWellFormed_assign {value : Valuation} (hvalue : value.IsWellFormed)
    (hrow : row.IsWellFormed) (slot : Nat) : (assign slot value row).IsWellFormed := by
  unfold assign
  split
  · rename_i t ht
    exact hrow.bind (hvalue row hrow t ht) slot
  · exact hrow

/-- Assigning a well-formed value to a name keeps all terms of a row well formed. -/
theorem isWellFormed_assignName {names : Slots} {name : String} {value : Valuation}
    (hvalue : value.IsWellFormed) (hrow : row.IsWellFormed) :
    (assignName names name value row).IsWellFormed := by
  unfold assignName
  split
  · exact isWellFormed_assign hvalue hrow _
  · exact hrow

/-- Accepting a well-formed term keeps all terms of a row well formed. -/
theorem isWellFormed_accept? {position : Position} {t : Term} {other : Solution}
    (ht : t.IsWellFormed) (hrow : row.IsWellFormed) (h : position.accept? t row = some other) :
    other.IsWellFormed := by
  cases position with
  | constant c =>
    cases h
    exact hrow
  | slot n =>
    unfold Position.accept? at h
    dsimp only at h
    split at h
    · simp only [Option.ite_none_right_eq_some] at h
      obtain ⟨-, h⟩ := h
      cases h
      exact hrow
    · cases h
      exact hrow.bind ht n

/-- Matching a pattern puts terms of stored triples into slots. -/
theorem areWellFormed_matchSolutions (hs : env.store.HoldsTerms) (p : Pattern)
    (hrow : row.IsWellFormed) : AreWellFormed (matchSolutions env p row) := by
  intro other hother
  unfold matchSolutions at hother
  split at hother
  · obtain ⟨m, hm, haccept⟩ := List.mem_filterMap.mp hother
    obtain ⟨-, t, hstored, rfl⟩ := (Store.mem_matching hs.coherent).mp hm
    have ht := hs.wellFormed t hstored
    obtain ⟨first, hfirst, haccept⟩ := Option.bind_eq_some_iff.mp haccept
    obtain ⟨second, hsecond, haccept⟩ := Option.bind_eq_some_iff.mp haccept
    have hfirst := isWellFormed_accept? ht.subject.toTerm hrow hfirst
    have hsecond := isWellFormed_accept? (t := .iri t.predicate) ht.predicate hfirst hsecond
    exact isWellFormed_accept? ht.object hsecond haccept
  · exact absurd hother List.not_mem_nil

/-- Joining with patterns brings in terms of the store only. -/
theorem areWellFormed_joinSolutions (hs : env.store.HoldsTerms) (patterns : List Pattern)
    (hrows : AreWellFormed rows) : AreWellFormed (joinSolutions env patterns rows) := by
  unfold joinSolutions
  induction patterns generalizing rows with
  | nil => exact hrows
  | cons p rest ih =>
    refine ih fun row hrow => ?_
    obtain ⟨first, hfirst, hmem⟩ := List.mem_flatMap.mp hrow
    exact areWellFormed_matchSolutions hs p (hrows first hfirst) row hmem

/-- Joining with a table brings in terms of the table only. -/
theorem areWellFormed_joinTable {table : List Solution} (htable : AreWellFormed table)
    (hrow : row.IsWellFormed) : AreWellFormed (joinTable table row) := by
  intro merged hmerged
  obtain ⟨other, hother, hmerge⟩ := List.mem_filterMap.mp hmerged
  exact hrow.merge? (htable other hother) hmerge

/-- A row of well-formed values binds well-formed terms only. -/
theorem areWellFormed_dataRow {values : List (Option Term)} (width : Nat) (slots : List Nat)
    (h : ∀ t, some t ∈ values → t.IsWellFormed) : (dataRow width slots values).IsWellFormed := by
  have hentries : ∀ entry ∈ slots.zip values, ∀ t, entry.2 = some t → t.IsWellFormed :=
    fun entry hentry t ht => h t (ht ▸ (List.of_mem_zip hentry).2)
  unfold dataRow
  generalize slots.zip values = entries at hentries
  have hstart := Solution.isWellFormed_unbound width
  generalize Solution.unbound width = row at hstart
  induction entries generalizing row with
  | nil => exact hstart
  | cons entry rest ih =>
    refine ih (fun e he => hentries e (List.mem_cons_of_mem _ he)) _ ?_
    dsimp only
    split
    · rename_i t ht
      exact hstart.bind (hentries entry List.mem_cons_self t ht) entry.1
    · exact hstart

/-- The rows of inline data bind well-formed terms only. -/
theorem areWellFormed_dataSolutions (names : Slots) {block : DataBlock} (h : block.IsProper) :
    AreWellFormed (dataSolutions names block) := by
  intro row hrow
  unfold dataSolutions at hrow
  split at hrow
  · rename_i hdata
    obtain ⟨slots, -, rfl⟩ := map_eq_ok hdata
    obtain ⟨values, hvalues, rfl⟩ := List.mem_map.mp hrow
    exact areWellFormed_dataRow _ slots (h.rows values hvalues)
  · exact absurd hrow List.not_mem_nil

/-- Replacing each row by rows of well-formed terms gives such rows. -/
theorem areWellFormed_flatMap {f : Solution → List Solution} (hrows : AreWellFormed rows)
    (hf : ∀ row : Solution, row.IsWellFormed → AreWellFormed (f row)) :
    AreWellFormed (rows.flatMap f) := by
  intro other hother
  obtain ⟨row, hrow, hmem⟩ := List.mem_flatMap.mp hother
  exact hf row (hrows row hrow) other hmem

/-- Replacing each row by a row of well-formed terms gives such rows. -/
theorem areWellFormed_map {f : Solution → Solution} (hrows : AreWellFormed rows)
    (hf : ∀ row : Solution, row.IsWellFormed → (f row).IsWellFormed) :
    AreWellFormed (rows.map f) := by
  intro other hother
  obtain ⟨row, hrow, rfl⟩ := List.mem_map.mp hother
  exact hf row (hrows row hrow)

end Joins

/-! ## Groups and expressions -/

/-- The elements are proper, and so are the parts in them. -/
def AreProper (elements : List Element) : Prop :=
  ∀ element ∈ elements, element.IsProper ∧ ∀ p ∈ element.parts, p.MeetsDeeply ingredients

section Parts

variable {env : Env}

/-- The elements of a group that meets the criterion are proper. -/
theorem areProper_elements {elements : List Element}
    (h : (Part.group (.mk elements)).MeetsDeeply ingredients) : AreProper elements := by
  intro element helement
  refine ⟨?_, fun p hp => h.inside (List.mem_flatMap.mpr ⟨element, helement, hp⟩)⟩
  obtain ⟨before, after, hsplit⟩ := List.append_of_mem helement
  exact h _ .self before element after hsplit

mutual

/-- The solutions of a group from a seed of well-formed terms have well-formed terms. -/
theorem areWellFormed_groupSolutions (hs : env.store.HoldsTerms) (g : Group)
    (h : (Part.group g).MeetsDeeply ingredients) {seed : Solution} (hseed : seed.IsWellFormed) :
    AreWellFormed (groupSolutions env g seed) := by
  match g with
  | .mk elements =>
    intro row hrow
    unfold groupSolutions at hrow
    have hstart : AreWellFormed [seed] := fun other hother => List.mem_singleton.mp hother ▸ hseed
    exact areWellFormed_elementSolutions hs elements (areProper_elements h) _ _ hstart row
      (List.mem_filter.mp hrow).1

/-- Each element keeps the terms of the solutions so far well-formed. -/
theorem areWellFormed_elementSolutions (hs : env.store.HoldsTerms) (elements : List Element)
    (h : AreProper elements) (bound : List String) (waiting : List Pattern)
    {rows : List Solution} (hrows : AreWellFormed rows) :
    AreWellFormed (elementSolutions env elements bound waiting rows) := by
  have hjoined := areWellFormed_joinSolutions hs (joinOrder bound waiting) hrows
  have hunbound := Solution.isWellFormed_unbound env.names.length
  match elements with
  | [] => exact hjoined
  | element :: rest =>
    obtain ⟨hproper, hparts⟩ := h element List.mem_cons_self
    have hrest : AreProper rest := fun e he => h e (List.mem_cons_of_mem _ he)
    match element with
    | .triples patterns =>
      exact areWellFormed_elementSolutions hs rest hrest bound (waiting ++ patterns) hrows
    | .filter _ => exact areWellFormed_elementSolutions hs rest hrest bound waiting hrows
    | .optional g =>
      refine areWellFormed_elementSolutions hs rest hrest _ _ (areWellFormed_flatMap hjoined ?_)
      intro row hrow
      have hg := areWellFormed_groupSolutions hs g (hparts _ List.mem_cons_self) hrow
      exact of_mem_orKeep hrow hg
    | .union branches =>
      have htable := areWellFormed_branchSolutions hs branches fun g hg =>
        hparts _ (List.mem_map_of_mem hg)
      exact areWellFormed_elementSolutions hs rest hrest _ _
        (areWellFormed_flatMap hjoined fun _ hrow => areWellFormed_joinTable htable hrow)
    | .group g =>
      have htable := areWellFormed_groupSolutions hs g (hparts _ List.mem_cons_self) hunbound
      exact areWellFormed_elementSolutions hs rest hrest _ _
        (areWellFormed_flatMap hjoined fun _ hrow => areWellFormed_joinTable htable hrow)
    | .minus g =>
      refine areWellFormed_elementSolutions hs rest hrest _ _ (areWellFormed_flatMap hjoined ?_)
      intro row hrow other hother
      rw [eq_of_mem_keepUnlessExcluded hother]
      exact hrow
    | .bind value name =>
      have hvalue := isWellFormed_valueOf hs value (hparts _ List.mem_cons_self)
      exact areWellFormed_elementSolutions hs rest hrest _ _
        (areWellFormed_map hjoined fun _ hrow => isWellFormed_assignName hvalue hrow)
    | .data block =>
      have htable := areWellFormed_dataSolutions env.names hproper
      exact areWellFormed_elementSolutions hs rest hrest _ _
        (areWellFormed_flatMap hjoined fun _ hrow => areWellFormed_joinTable htable hrow)

/-- The rows of each branch of a union bind well-formed terms only. -/
theorem areWellFormed_branchSolutions (hs : env.store.HoldsTerms) (branches : List Group)
    (h : ∀ g ∈ branches, (Part.group g).MeetsDeeply ingredients) :
    AreWellFormed (branchSolutions env branches) := by
  match branches with
  | [] => exact fun _ hrow => absurd hrow List.not_mem_nil
  | g :: rest =>
    have hfirst := areWellFormed_groupSolutions hs g (h g List.mem_cons_self)
      (Solution.isWellFormed_unbound env.names.length)
    have hothers := areWellFormed_branchSolutions hs rest fun other hother =>
      h other (List.mem_cons_of_mem _ hother)
    exact fun row hrow => (List.mem_append.mp hrow).elim (hfirst row) (hothers row)

/-- The value of an expression is well-formed. -/
theorem isWellFormed_valueOf (hs : env.store.HoldsTerms) (e : Query.Expr)
    (h : (Part.expr e).MeetsDeeply ingredients) : (valueOf env e).IsWellFormed := by
  match e with
  | .var name => exact Valuation.isWellFormed_var env.names name
  | .const t =>
    rintro row - u ⟨⟩
    exact h _ .self
  | .binary op left right => exact Valuation.isWellFormed_binary op _ _
  | .unary op operand => exact Valuation.isWellFormed_unary op _
  | .call f args =>
    exact Valuation.isWellFormed_call f (areWellFormed_valuesOf hs args fun e he =>
      h.inside (List.mem_map_of_mem he))
  | .member negated operand items => exact Valuation.isWellFormed_member negated _ _
  | .exists negated g => exact Valuation.isWellFormed_exists negated _

/-- Expressions in a row are worth well-formed terms. -/
theorem areWellFormed_valuesOf (hs : env.store.HoldsTerms) (es : List Query.Expr)
    (h : ∀ e ∈ es, (Part.expr e).MeetsDeeply ingredients) :
    ∀ v ∈ valuesOf env es, v.IsWellFormed := by
  match es with
  | [] => exact fun _ hv => absurd hv List.not_mem_nil
  | e :: rest =>
    have hfirst := isWellFormed_valueOf hs e (h e List.mem_cons_self)
    have hothers := areWellFormed_valuesOf hs rest fun other hother =>
      h other (List.mem_cons_of_mem _ hother)
    intro v hv
    rcases List.mem_cons.mp hv with rfl | hv
    · exact hfirst
    · exact hothers v hv

end

end Parts

end RdfStore.Eval
