import Mathlib.Data.List.FinRange
import RdfStore.Proofs.Eval.GroupMeaning

/-!
# The join order is greedy

Patterns are placed one after the other. The next one is always a pattern with the most fixed
positions among those that are left, and of several such patterns the first in the source. Equal
patterns can stand in a list more than once, so an order is given by the places of the patterns in
the source, each of which occurs in it exactly once.
-/

set_option autoImplicit false

namespace RdfStore.Eval

open Query

/-! ## Fixed positions -/

/-- No variable stands at a position, or one that is bound before or is in a pattern that has been
placed. -/
def IsFixed (bound : List String) (placed : List Pattern) (place : Place) : Prop :=
  ∀ name ∈ place.var?, name ∈ bound ∨ ∃ p ∈ placed, name ∈ p.vars

instance (bound : List String) (placed : List Pattern) : DecidablePred (IsFixed bound placed) :=
  fun place => inferInstanceAs (Decidable (∀ name ∈ place.var?, _))

/-- How many positions of a pattern are fixed once others have been placed. -/
def fixedPlaces (bound : List String) (placed : List Pattern) (p : Pattern) : Nat :=
  p.places.countP fun place => IsFixed bound placed place

/-- The variables that are bound once patterns have been placed. -/
def boundAfter (bound : List String) (placed : List Pattern) : List String :=
  bound ++ placed.flatMap Pattern.vars

/-- The variables bound after one more pattern include those of the pattern. -/
theorem boundAfter_concat (bound : List String) (placed : List Pattern) (p : Pattern) :
    boundAfter bound (placed ++ [p]) = boundAfter bound placed ++ p.vars := by
  simp only [boundAfter, List.flatMap_append, List.flatMap_singleton, List.append_assoc]

/-- The test whether a place is fixed decides it. -/
theorem isFixed_iff {bound : List String} {placed : List Pattern} {place : Place} :
    IsFixed bound placed place ↔
      (place.var?.all fun name => (boundAfter bound placed).contains name) = true := by
  unfold IsFixed boundAfter
  cases place.var? with
  | none => simp
  | some name => simp [List.mem_flatMap]

/-- Positions are counted over the variables that are bound by then. -/
theorem fixedCount_boundAfter (bound : List String) (placed : List Pattern) (p : Pattern) :
    fixedCount (boundAfter bound placed) p = fixedPlaces bound placed p := by
  unfold fixedCount fixedPlaces
  rw [List.countP_eq_length_filter]
  congr 1
  refine List.filter_congr fun place _ => ?_
  rw [Bool.eq_iff_iff, decide_eq_true_iff, isFixed_iff]

/-! ## Choices -/

section Places

variable (bound : List String) (patterns : List Pattern)

/-- How many positions of a pattern of the source are fixed after those at some places. -/
def fixedAt (placed : List (Fin patterns.length)) (i : Fin patterns.length) : Nat :=
  fixedPlaces bound (placed.map patterns.get) (patterns.get i)

/-- One place is to be chosen before another. -/
def IsBefore (placed : List (Fin patterns.length)) (i j : Fin patterns.length) : Prop :=
  fixedAt bound patterns placed j < fixedAt bound patterns placed i ∨
    fixedAt bound patterns placed j = fixedAt bound patterns placed i ∧ i < j

/-- Each place of an order is to be chosen before all that come later in it, given those at the
start and those that come earlier. -/
def AreChosen (start order : List (Fin patterns.length)) : Prop :=
  ∀ before i after, order = before ++ i :: after →
    ∀ j ∈ after, IsBefore bound patterns (start ++ before) i j

/-- An order of all places, each chosen when it is its turn. -/
structure IsGreedy (order : List (Fin patterns.length)) : Prop where
  perm : order.Perm (List.finRange patterns.length)
  chosen : AreChosen bound patterns [] order

variable {bound patterns} {start order : List (Fin patterns.length)}

/-- An empty order makes no choices. -/
theorem areChosen_nil : AreChosen bound patterns start [] := by
  intro before i after h
  exact absurd h.symm (List.append_ne_nil_of_right_ne_nil before (List.cons_ne_nil i after))

/-- An order is chosen if its first pattern comes before all others and the rest is chosen after it.
-/
theorem AreChosen.cons {i : Fin patterns.length}
    (hfirst : ∀ j ∈ order, IsBefore bound patterns start i j)
    (h : AreChosen bound patterns (start ++ [i]) order) :
    AreChosen bound patterns start (i :: order) := by
  intro before k after hsplit j hj
  cases before with
  | nil =>
    obtain ⟨rfl, rfl⟩ := List.cons.inj hsplit
    rw [List.append_nil]
    exact hfirst j hj
  | cons first before =>
    obtain ⟨rfl, hrest⟩ := List.cons.inj hsplit
    have hnext := h before k after hrest j hj
    rwa [List.append_assoc] at hnext

/-- Of the places that are left, in their order, the choice is before all others. -/
theorem exists_choice {left : List (Fin patterns.length)} {p : Pattern} {others : List Pattern}
    (hleft : left.Pairwise (· < ·))
    (h : cheapest? (boundAfter bound (start.map patterns.get)) (left.map patterns.get) =
      some (p, others)) :
    ∃ i rest, p = patterns.get i ∧ others = rest.map patterns.get ∧ (i :: rest).Perm left ∧
      rest.Pairwise (· < ·) ∧ ∀ j ∈ rest, IsBefore bound patterns start i j := by
  obtain ⟨front, back, hsplit, rfl, hfront, hback⟩ := cheapest?_split h
  obtain ⟨frontPlaces, others, rfl, rfl, hothers⟩ := List.map_eq_append_iff.mp hsplit
  obtain ⟨i, backPlaces, rfl, rfl, rfl⟩ := List.map_eq_cons_iff.mp hothers
  simp only [fixedCount_boundAfter] at hfront hback
  obtain ⟨hfirst, hsecond, hcross⟩ := List.pairwise_append.mp hleft
  obtain ⟨hbehind, hlast⟩ := List.pairwise_cons.mp hsecond
  refine ⟨i, frontPlaces ++ backPlaces, rfl, List.map_append.symm, List.perm_middle.symm,
    List.pairwise_append.mpr ⟨hfirst, hlast, fun j hj k hk =>
      hcross j hj k (List.mem_cons_of_mem i hk)⟩, fun j hj => ?_⟩
  rcases List.mem_append.mp hj with hj | hj
  · exact .inl (hfront _ (List.mem_map_of_mem hj))
  · rcases Nat.lt_or_eq_of_le (hback _ (List.mem_map_of_mem hj)) with hlt | heq
    · exact .inl hlt
    · exact .inr ⟨heq, hbehind j hj⟩

/-- From any point on the places that are left are chosen one after the other. -/
theorem exists_areChosen (start left : List (Fin patterns.length))
    (hleft : left.Pairwise (· < ·)) :
    ∃ order, joinOrder (boundAfter bound (start.map patterns.get)) (left.map patterns.get) =
        order.map patterns.get ∧ order.Perm left ∧ AreChosen bound patterns start order := by
  generalize hbound : boundAfter bound (start.map patterns.get) = names
  generalize hpatterns : left.map patterns.get = waiting
  induction names, waiting using joinOrder.induct generalizing start left with
  | case1 names waiting hnone =>
    have hnil : left = [] := by
      rw [cheapest?_eq_none hnone] at hpatterns
      exact List.map_eq_nil_iff.mp hpatterns
    refine ⟨[], ?_, by rw [hnil], areChosen_nil⟩
    rw [cheapest?_eq_none hnone, joinOrder_nil, List.map_nil]
  | case2 names waiting p others hsome ih =>
    subst hbound hpatterns
    obtain ⟨i, rest, rfl, rfl, hperm, hrest, hbefore⟩ := exists_choice hleft hsome
    have hbound : boundAfter bound ((start ++ [i]).map patterns.get) =
        boundAfter bound (start.map patterns.get) ++ (patterns.get i).vars := by
      rw [List.map_append, List.map_singleton, boundAfter_concat]
    obtain ⟨order, horder, hsame, hchosen⟩ := ih (start ++ [i]) rest hrest hbound rfl
    refine ⟨i :: order, ?_, (hsame.cons i).trans hperm,
      .cons (fun j hj => hbefore j (hsame.mem_iff.mp hj)) hchosen⟩
    rw [joinOrder]
    split
    · rename_i hnone
      rw [hsome] at hnone
      cases hnone
    · rename_i q more hq
      rw [hsome] at hq
      cases hq
      rw [horder, List.map_cons]

end Places

/-- The join order is a greedy one: it has every pattern of the source once, and each pattern has,
when it is placed, the most fixed positions of all that are not placed yet, and of those with as
many it comes first in the source. -/
theorem joinOrder_isGreedy (bound : List String) (patterns : List Pattern) :
    ∃ order, IsGreedy bound patterns order ∧
      joinOrder bound patterns = order.map patterns.get := by
  obtain ⟨order, horder, hperm, hchosen⟩ := @exists_areChosen bound patterns []
    (List.finRange patterns.length) (List.pairwise_lt_finRange patterns.length)
  refine ⟨order, ⟨hperm, hchosen⟩, ?_⟩
  rw [List.map_nil, boundAfter, List.flatMap_nil, List.append_nil, List.map_get_finRange] at horder
  exact horder

end RdfStore.Eval
