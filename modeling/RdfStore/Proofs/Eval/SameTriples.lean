import Mathlib.Data.List.Dedup
import Mathlib.Data.List.Perm.Basic
import RdfStore.Proofs.Eval.JoinTable
import RdfStore.Proofs.Eval.QueryMeaning
import RdfStore.Proofs.Eval.Sorting
import RdfStore.Proofs.Query.WellFormed
import RdfStore.Proofs.Store.Lookup
import RdfStore.Proofs.Store.Refinement

/-!
# Answers depend on the stored triples only

Two stores with the same triples can number their terms differently and then list triples in
different orders. Every operator of a query takes permuted rows to permuted rows, and every
expression is worth the same at a row on both stores, because `EXISTS` only asks whether
there is a row. So queries without a slice have the same answers, up to the order of rows.
-/

set_option autoImplicit false

namespace RdfStore.Eval

open Query

/-- Two coherent stores with the same triples. -/
structure SameTriples (a b : Store) : Prop where
  left : a.IsCoherent
  right : b.IsCoherent
  contains : ∀ t, a.contains t = b.contains t

variable {a b : Store} {rows others : List Solution}

/-! ## Steps on permuted rows -/

/-- Lookups in both stores list the same triples. -/
theorem matching_perm (h : SameTriples a b) (subject predicate object : Option Term) :
    (a.matching subject predicate object).Perm (b.matching subject predicate object) := by
  rw [List.perm_ext_iff_of_nodup (Store.matching_nodup h.left subject predicate object)
    (Store.matching_nodup h.right subject predicate object)]
  intro m
  rw [Store.mem_matching h.left, Store.mem_matching h.right]
  simp only [h.contains]

/-- A pattern has the same solutions from a row. -/
theorem matchSolutions_perm (h : SameTriples a b) (names : Slots) (p : Pattern)
    (row : Solution) :
    (matchSolutions ⟨a, names⟩ p row).Perm (matchSolutions ⟨b, names⟩ p row) := by
  unfold matchSolutions
  dsimp only
  split
  · exact (matching_perm h _ _ _).filterMap _
  · exact List.Perm.refl []

/-- Nested loops take permuted rows to permuted rows. -/
theorem joinSolutions_perm (h : SameTriples a b) (names : Slots) (patterns : List Pattern)
    (hrows : rows.Perm others) :
    (joinSolutions ⟨a, names⟩ patterns rows).Perm (joinSolutions ⟨b, names⟩ patterns others) := by
  unfold joinSolutions
  induction patterns generalizing rows others with
  | nil => exact hrows
  | cons p rest ih =>
    exact ih (hrows.flatMap fun row _ => matchSolutions_perm h names p row)

/-- Permuted extensions of a row stay permuted when the row stands in for none. -/
theorem orKeep_perm (row : Solution) (hrows : rows.Perm others) :
    (orKeep row rows).Perm (orKeep row others) := by
  cases rows with
  | nil =>
    rw [hrows.nil_eq]
  | cons first rest =>
    cases others with
    | nil => exact absurd hrows.symm (by simp)
    | cons first' rest' => exact hrows

/-- Permuted tables exclude the same rows. -/
theorem keepUnlessExcluded_eq (row : Solution) (hrows : rows.Perm others) :
    keepUnlessExcluded rows row = keepUnlessExcluded others row := by
  unfold keepUnlessExcluded excludedBy
  rw [hrows.any_eq]

/-! ## Groups and expressions -/

mutual

/-- A group has the same solutions from a seed on both stores, up to their order. -/
theorem groupSolutions_perm (h : SameTriples a b) (names : Slots) (g : Group)
    (seed : Solution) :
    (groupSolutions ⟨a, names⟩ g seed).Perm (groupSolutions ⟨b, names⟩ g seed) := by
  match g with
  | .mk elements =>
    rw [groupSolutions, groupSolutions, conditionsOf_eq h names elements]
    exact (elementSolutions_perm h names elements _ [] (List.Perm.refl [seed])).filter _

/-- Elements take permuted rows to permuted rows. -/
theorem elementSolutions_perm (h : SameTriples a b) (names : Slots) (elements : List Element)
    (bound : List String) (waiting : List Pattern) {rows others : List Solution}
    (hrows : rows.Perm others) :
    (elementSolutions ⟨a, names⟩ elements bound waiting rows).Perm
      (elementSolutions ⟨b, names⟩ elements bound waiting others) := by
  -- all but patterns and conditions first join the patterns that wait
  have hjoin := joinSolutions_perm h names (joinOrder bound waiting) hrows
  match elements with
  | [] =>
    rw [elementSolutions, elementSolutions]
    exact hjoin
  | .triples patterns :: rest =>
    rw [elementSolutions, elementSolutions]
    exact elementSolutions_perm h names rest bound (waiting ++ patterns) hrows
  | .filter condition :: rest =>
    rw [elementSolutions, elementSolutions]
    exact elementSolutions_perm h names rest bound waiting hrows
  | .optional group :: rest =>
    rw [elementSolutions, elementSolutions]
    refine elementSolutions_perm h names rest _ [] (hjoin.flatMap fun row _ => ?_)
    exact orKeep_perm row (groupSolutions_perm h names group row)
  | .union branches :: rest =>
    rw [elementSolutions, elementSolutions]
    refine elementSolutions_perm h names rest _ [] (hjoin.flatMap fun row _ => ?_)
    exact joinTable_perm row (branchSolutions_perm h names branches)
  | .group inner :: rest =>
    rw [elementSolutions, elementSolutions]
    refine elementSolutions_perm h names rest _ [] (hjoin.flatMap fun row _ => ?_)
    exact joinTable_perm row (groupSolutions_perm h names inner _)
  | .minus group :: rest =>
    rw [elementSolutions, elementSolutions]
    refine elementSolutions_perm h names rest _ [] (hjoin.flatMap fun row _ => ?_)
    exact .of_eq (keepUnlessExcluded_eq row (groupSolutions_perm h names group _))
  | .bind value name :: rest =>
    rw [elementSolutions, elementSolutions, valueOf_eq h names value]
    exact elementSolutions_perm h names rest _ [] (hjoin.map _)
  | .data block :: rest =>
    rw [elementSolutions, elementSolutions]
    exact elementSolutions_perm h names rest _ []
      (hjoin.flatMap fun row _ => List.Perm.refl _)

/-- Branches have the same solutions, up to their order. -/
theorem branchSolutions_perm (h : SameTriples a b) (names : Slots) (branches : List Group) :
    (branchSolutions ⟨a, names⟩ branches).Perm (branchSolutions ⟨b, names⟩ branches) := by
  match branches with
  | [] => exact List.Perm.refl []
  | branch :: rest =>
    rw [branchSolutions, branchSolutions]
    exact (groupSolutions_perm h names branch _).append (branchSolutions_perm h names rest)

/-- The conditions among elements hold for the same rows. -/
theorem conditionsOf_eq (h : SameTriples a b) (names : Slots) (elements : List Element) :
    conditionsOf ⟨a, names⟩ elements = conditionsOf ⟨b, names⟩ elements := by
  match elements with
  | [] => rw [conditionsOf, conditionsOf]
  | .filter condition :: rest =>
    rw [conditionsOf, conditionsOf, valueOf_eq h names condition, conditionsOf_eq h names rest]
  | .triples _ :: rest | .optional _ :: rest | .union _ :: rest | .group _ :: rest
  | .minus _ :: rest | .bind _ _ :: rest | .data _ :: rest =>
    simp only [conditionsOf, conditionsOf_eq h names rest]

/-- An expression is worth the same on both stores. -/
theorem valueOf_eq (h : SameTriples a b) (names : Slots) (e : Expr) :
    valueOf ⟨a, names⟩ e = valueOf ⟨b, names⟩ e := by
  match e with
  | .var name => rfl
  | .const t => rfl
  | .binary op left right =>
    rw [valueOf, valueOf, valueOf_eq h names left, valueOf_eq h names right]
  | .unary op operand => rw [valueOf, valueOf, valueOf_eq h names operand]
  | .call f args => rw [valueOf, valueOf, valuesOf_eq h names args]
  | .member negated operand items =>
    rw [valueOf, valueOf, valueOf_eq h names operand, valuesOf_eq h names items]
  | .exists negated group =>
    rw [valueOf, valueOf]
    congr 1
    funext row
    rw [(groupSolutions_perm h names group row).isEmpty_eq]

/-- Expressions are worth the same on both stores. -/
theorem valuesOf_eq (h : SameTriples a b) (names : Slots) (es : List Expr) :
    valuesOf ⟨a, names⟩ es = valuesOf ⟨b, names⟩ es := by
  match es with
  | [] => rfl
  | e :: rest => rw [valuesOf, valuesOf, valueOf_eq h names e, valuesOf_eq h names rest]

end

/-! ## Queries -/

/-- Sorting, if it is asked for, permutes rows. -/
theorem sortedSolutions_perm (env : Env) (m : Modifiers) (rows : List Solution) :
    (sortedSolutions env m rows).Perm rows := by
  unfold sortedSolutions
  split
  · exact List.Perm.refl rows
  · exact sortRows_perm _ rows

/-- Where later repetitions are dropped, nothing stands twice. -/
theorem nodup_eraseDups {α : Type} [BEq α] [LawfulBEq α] (list : List α) :
    list.eraseDups.Nodup := by
  induction hlen : list.length using Nat.strongRecOn generalizing list with
  | ind n ih =>
    cases list with
    | nil => exact List.nodup_nil
    | cons first rest =>
      rw [List.eraseDups_cons, List.nodup_cons]
      refine ⟨?_, ih _ ?_ _ rfl⟩
      · simp only [List.mem_eraseDups, List.mem_filter, beq_self_eq_true, Bool.not_true,
          Bool.false_eq_true, and_false, not_false_eq_true]
      · rw [← hlen, List.length_cons]
        exact Nat.lt_succ_of_le (List.length_filter_le _ rest)

end RdfStore.Eval
