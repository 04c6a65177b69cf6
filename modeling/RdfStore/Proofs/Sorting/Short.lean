import Mathlib.Tactic.Tauto
import RdfStore.Proofs.Sorting.Order

/-!
# Sorting short lists

Insertion, the order of four members and the merge from both ends keep the members of a list, by
whatever comparison. By one that is transitive on the members each of them is a stable sort, and the
two ends of the merge meet: both cut the halves at places that cannot cross.
-/

set_option autoImplicit false

namespace RdfStore.Sorting

open Std

variable {α : Type} {less : α → α → Bool} {cmp : α → α → Ordering} {p : α → Prop}

/-! ## Insertion -/

/-- Inserting into a list that is held from its back is merging from the back. -/
theorem insertFromBack_eq (less : α → α → Bool) (a : α) (back : List α) :
    insertFromBack less a back = [a].merge back fun a b => !less a b := by
  induction back with
  | nil => simp [insertFromBack]
  | cons b rest ih =>
    rw [insertFromBack, List.cons_merge_cons, ih]
    cases less a b <;> simp

/-- Inserting all members inserts the first one and then the others. -/
theorem insertAll_cons (less : α → α → Bool) (sorted : List α) (a : α) (list : List α) :
    insertAll less sorted (a :: list) =
      insertAll less (insertFromBack less a sorted.reverse).reverse list := by
  unfold insertAll
  rw [List.foldl_cons, List.reverse_reverse]

/-- Inserting loses nothing and repeats nothing. -/
theorem insertAll_perm (less : α → α → Bool) (sorted list : List α) :
    (insertAll less sorted list).Perm (sorted ++ list) := by
  induction list generalizing sorted with
  | nil => simp [insertAll]
  | cons a list ih =>
    rw [insertAll_cons, insertFromBack_eq]
    refine (ih _).trans ?_
    have hinsert : ([a].merge sorted.reverse fun a b => !less a b).reverse.Perm (sorted ++ [a]) := by
      refine (List.reverse_perm _).trans ((List.merge_perm_append _).trans ?_)
      exact List.perm_append_comm.trans ((List.reverse_perm sorted).append_right [a])
    simpa using hinsert.append_right list

variable [OrientedCmp cmp]

/-- Inserting members behind a sorted list sorts all of them. -/
theorem IsStableSort.insertAll (htrans : IsTransOn cmp p) {s sorted list : List α}
    (hp : ∀ a ∈ s ++ list, p a) (h : IsStableSort cmp s sorted) :
    IsStableSort cmp (s ++ list) (insertAll (lessBy cmp) sorted list) := by
  induction list generalizing s sorted with
  | nil => simpa [Sorting.insertAll] using h
  | cons a list ih =>
    rw [insertAll_cons, insertFromBack_eq, List.append_cons]
    rw [List.append_cons] at hp
    refine ih hp ?_
    exact h.mergeFromBack htrans (fun b hb => hp b (List.mem_append_left list hb)) (.singleton a)

/-- Insertion sorts, and ties stay as they stood. -/
theorem isStableSort_insertionSort (htrans : IsTransOn cmp p) {list : List α}
    (hp : ∀ a ∈ list, p a) : IsStableSort cmp list (insertionSort (lessBy cmp) list) :=
  IsStableSort.nil.insertAll htrans hp

omit [OrientedCmp cmp] in
/-- Sorting by insertion loses nothing and repeats nothing. -/
theorem insertionSort_perm (less : α → α → Bool) (list : List α) :
    (insertionSort less list).Perm list := insertAll_perm less [] list

/-! ## Four members -/

omit [OrientedCmp cmp] in
/-- Sorting two members keeps them both. -/
theorem sortTwo_perm (less : α → α → Bool) (a b : α) :
    [(sortTwo less a b).1, (sortTwo less a b).2].Perm [a, b] := by
  unfold sortTwo
  split
  · exact .swap a b []
  · exact .refl _

omit [OrientedCmp cmp] in
/-- Merging two pairs keeps their four members. -/
theorem mergePairs_perm (less : α → α → Bool) (a b c d : α) :
    (mergePairs less a b c d).Perm [a, b, c, d] := by
  classical
  refine List.perm_iff_count.mpr fun x => ?_
  unfold mergePairs
  simp only [apply_ite (List.count x), List.count_cons, List.count_nil]
  by_cases hca : less c a = true <;> by_cases hdb : less d b = true <;>
    simp only [hca, hdb, if_true, if_false, Bool.false_eq_true] <;> split <;> omega

omit [OrientedCmp cmp] in
/-- Sorting four members keeps them. -/
theorem sortFour_perm (less : α → α → Bool) (a b c d : α) :
    (sortFour less a b c d).Perm [a, b, c, d] :=
  (mergePairs_perm less _ _ _ _).trans ((sortTwo_perm less a b).append (sortTwo_perm less c d))

/-- Two members in order are what a merge makes of them. -/
theorem isStableSort_sortTwo (htrans : IsTransOn cmp p) {a b : α} (ha : p a) (hb : p b) :
    IsStableSort cmp [a, b] [(sortTwo (lessBy cmp) a b).1, (sortTwo (lessBy cmp) a b).2] := by
  have hmerge : IsStableSort cmp ([a] ++ [b]) ([a].merge [b] fun x y => !lessBy cmp y x) :=
    (IsStableSort.singleton a).merge htrans (by simp [ha, hb]) (.singleton b)
  rw [List.cons_merge_cons] at hmerge
  unfold sortTwo
  cases hless : lessBy cmp b a <;> simpa [hless] using hmerge

/-- Pairs in order are merged as lists are: what the three comparisons leave open follows from the
order of the pairs. -/
theorem mergePairs_eq (htrans : IsTransOn cmp p) {a b c d : α} (ha : p a) (hb : p b) (hc : p c)
    (hd : p d) (hab : (cmp a b).isLE = true) (hcd : (cmp c d).isLE = true) :
    mergePairs (lessBy cmp) a b c d = [a, b].merge [c, d] fun x y => !lessBy cmp y x := by
  have hless : ∀ {x y : α}, lessBy cmp x y = true ↔ cmp x y = .lt := beq_iff_eq
  have hnot : ∀ {x y : α}, (cmp x y).isLE = true → lessBy cmp y x = false := by
    intro x y h
    rw [← not_lessBy] at h
    simpa using h
  unfold mergePairs
  by_cases hca : lessBy cmp c a = true
  · by_cases hdb : lessBy cmp d b = true
    · -- `c` is first and `b` last
      by_cases hda : lessBy cmp d a = true <;> simp [hca, hdb, hda]
    · have hbd : (cmp b d).isLE = true := by simpa [← not_lessBy] using hdb
      have hda := hnot (htrans ha hb hd hab hbd)
      simp [hca, hdb, hda, hnot hab]
  · by_cases hdb : lessBy cmp d b = true
    · have hcb := hless.mpr (htrans.lt_of_isLE_of_lt hc hd hb hcd (hless.mp hdb))
      simp [hca, hdb, hcb, hnot hcd]
    · by_cases hcb : lessBy cmp c b = true <;> simp [hca, hdb, hcb]

/-- Merging pairs in order is a stable sort of what both were made of. -/
theorem IsStableSort.mergePairs (htrans : IsTransOn cmp p) {s t : List α} {a b c d : α}
    (hp : ∀ x ∈ s ++ t, p x) (hs : IsStableSort cmp s [a, b]) (ht : IsStableSort cmp t [c, d]) :
    IsStableSort cmp (s ++ t) (mergePairs (lessBy cmp) a b c d) := by
  have hl : ∀ x ∈ [a, b], p x := fun x hx => hp x (List.mem_append_left t (hs.mem_iff.mp hx))
  have hr : ∀ x ∈ [c, d], p x := fun x hx => hp x (List.mem_append_right s (ht.mem_iff.mp hx))
  rw [mergePairs_eq htrans (hl a (by simp)) (hl b (by simp)) (hr c (by simp)) (hr d (by simp))
    (List.rel_of_pairwise_cons hs.ordered (by simp))
    (List.rel_of_pairwise_cons ht.ordered (by simp))]
  exact hs.merge htrans hp ht

/-- Sorting four members is a stable sort. -/
theorem isStableSort_sortFour (htrans : IsTransOn cmp p) {a b c d : α}
    (hp : ∀ x ∈ [a, b, c, d], p x) :
    IsStableSort cmp [a, b, c, d] (sortFour (lessBy cmp) a b c d) :=
  (isStableSort_sortTwo htrans (hp a (by simp)) (hp b (by simp))).mergePairs htrans hp
    (isStableSort_sortTwo htrans (hp c (by simp)) (hp d (by simp)))

/-! ## Halves -/

omit [OrientedCmp cmp] in
/-- Sorting a half loses nothing and repeats nothing. -/
theorem sortHalf_perm (less : α → α → Bool) (byFour : Bool) (list : List α) :
    (sortHalf less byFour list).Perm list := by
  unfold sortHalf
  split
  · rename_i a b c d rest
    split
    · exact (insertAll_perm less _ rest).trans ((sortFour_perm less a b c d).append_right rest)
    · exact insertionSort_perm less _
  · exact insertionSort_perm less _

/-- A half is sorted, and ties stay as they stood. -/
theorem isStableSort_sortHalf (htrans : IsTransOn cmp p) (byFour : Bool) (list : List α)
    (hp : ∀ a ∈ list, p a) : IsStableSort cmp list (sortHalf (lessBy cmp) byFour list) := by
  unfold sortHalf
  split
  · rename_i a b c d rest
    split
    · have hfour := isStableSort_sortFour htrans (a := a) (b := b) (c := c) (d := d)
        fun x hx => hp x (List.mem_append_left rest hx)
      exact hfour.insertAll htrans hp
    · exact isStableSort_insertionSort htrans hp
  · exact isStableSort_insertionSort htrans hp

/-! ## Merging from both ends -/

/-- How members of two lists are taken in merged order: what was taken, and the front and the rest of
either list. -/
inductive IsTaken (less : α → α → Bool) :
    List α → List α → List α → List α → List α → Prop where
  | stop (left right : List α) : IsTaken less [] [] left [] right
  | left {a b : α} {front leftFront leftRest rightFront rightRest right : List α}
      (hless : less b a = false) (hright : rightFront ++ rightRest = b :: right)
      (h : IsTaken less front leftFront leftRest rightFront rightRest) :
      IsTaken less (a :: front) (a :: leftFront) leftRest rightFront rightRest
  | right {a b : α} {front leftFront leftRest rightFront rightRest left : List α}
      (hless : less b a = true) (hleft : leftFront ++ leftRest = a :: left)
      (h : IsTaken less front leftFront leftRest rightFront rightRest) :
      IsTaken less (b :: front) leftFront leftRest (b :: rightFront) rightRest

/-- A cut through two lists: all of the front of either list may stand before all of the rest of the
other, and those of the right list must. -/
structure IsCut (cmp : α → α → Ordering) (leftFront leftRest rightFront rightRest : List α) :
    Prop where
  left : ∀ a ∈ leftFront, ∀ b ∈ rightRest, (cmp a b).isLE = true
  right : ∀ b ∈ rightFront, ∀ a ∈ leftRest, cmp b a = .lt

section Taken

variable {front leftFront leftRest rightFront rightRest : List α}

omit [OrientedCmp cmp] in
/-- As many members are taken as are asked for, if both lists have them. -/
theorem exists_isTaken (less : α → α → Bool) (n : Nat) (left right : List α)
    (hl : n ≤ left.length) (hr : n ≤ right.length) :
    ∃ leftFront rightFront, left = leftFront ++ (takeMerged less n left right).2.1 ∧
      right = rightFront ++ (takeMerged less n left right).2.2 ∧
      (takeMerged less n left right).1.length = n ∧
      IsTaken less (takeMerged less n left right).1 leftFront (takeMerged less n left right).2.1
        rightFront (takeMerged less n left right).2.2 := by
  induction n generalizing left right with
  | zero => exact ⟨[], [], by simp [takeMerged, IsTaken.stop]⟩
  | succ n ih =>
    cases left with
    | nil => cases hl
    | cons a left =>
      cases right with
      | nil => cases hr
      | cons b right =>
        rw [takeMerged]
        split
        · rename_i hless
          obtain ⟨leftFront, rightFront, hleft, hright, hlength, htaken⟩ :=
            ih (a :: left) right (Nat.le_of_succ_le hl) (Nat.le_of_succ_le_succ hr)
          exact ⟨leftFront, b :: rightFront, hleft, congrArg (b :: ·) hright,
            congrArg (· + 1) hlength, .right hless hleft.symm htaken⟩
        · rename_i hless
          obtain ⟨leftFront, rightFront, hleft, hright, hlength, htaken⟩ :=
            ih left (b :: right) (Nat.le_of_succ_le_succ hl) (Nat.le_of_succ_le hr)
          exact ⟨a :: leftFront, rightFront, congrArg (a :: ·) hleft, hright,
            congrArg (· + 1) hlength, .left (by simpa using hless) hright.symm htaken⟩

omit [OrientedCmp cmp] in
/-- What was taken is the merge of the fronts. -/
theorem IsTaken.front_eq (h : IsTaken less front leftFront leftRest rightFront rightRest) :
    front = leftFront.merge rightFront fun a b => !less b a := by
  induction h with
  | stop left right => simp
  | @left a b front leftFront leftRest rightFront rightRest right hless hright h ih =>
    cases rightFront with
    | nil =>
      rw [ih]
      simp
    | cons c rightFront =>
      obtain rfl : c = b := (List.cons.inj hright).1
      rw [List.cons_merge_cons, hless, ih]
      rfl
  | @right a b front leftFront leftRest rightFront rightRest left hless hleft h ih =>
    cases leftFront with
    | nil =>
      rw [ih]
      simp
    | cons c leftFront =>
      obtain rfl : c = a := (List.cons.inj hleft).1
      rw [List.cons_merge_cons, hless, ih]
      rfl

omit [OrientedCmp cmp] in
/-- What a merge has taken comes from the one side or from the other. -/
theorem IsTaken.length_eq (h : IsTaken less front leftFront leftRest rightFront rightRest) :
    front.length = leftFront.length + rightFront.length := by
  rw [h.front_eq, List.length_merge]

/-- Taking members of lists that are in order cuts them. -/
theorem IsTaken.isCut (htrans : IsTransOn cmp p)
    (h : IsTaken (lessBy cmp) front leftFront leftRest rightFront rightRest)
    (hl : ∀ a ∈ leftFront ++ leftRest, p a) (hr : ∀ b ∈ rightFront ++ rightRest, p b)
    (hleft : (leftFront ++ leftRest).Pairwise fun a b => (cmp a b).isLE = true)
    (hright : (rightFront ++ rightRest).Pairwise fun a b => (cmp a b).isLE = true) :
    IsCut cmp leftFront leftRest rightFront rightRest := by
  induction h with
  | stop left right => exact ⟨nofun, nofun⟩
  | @left a b front leftFront leftRest rightFront rightRest right hless hnext h ih =>
    have hab : (cmp a b).isLE = true := by
      rw [← not_lessBy, hless]
      rfl
    have hrest := ih (fun c hc => hl c (List.mem_cons_of_mem a hc)) hr hleft.of_cons hright
    refine ⟨fun c hc d hd => ?_, hrest.right⟩
    rcases List.mem_cons.mp hc with rfl | hc
    · have hmem : d ∈ rightFront ++ rightRest := List.mem_append_right rightFront hd
      have hpd := hr d hmem
      rw [hnext] at hmem hr hright
      rcases List.mem_cons.mp hmem with rfl | hmem
      · exact hab
      · exact htrans (hl c List.mem_cons_self) (hr b List.mem_cons_self) hpd hab
          (List.rel_of_pairwise_cons hright hmem)
    · exact hrest.left c hc d hd
  | @right a b front leftFront leftRest rightFront rightRest left hless hnext h ih =>
    have hba : cmp b a = .lt := beq_iff_eq.mp hless
    have hrest := ih hl (fun c hc => hr c (List.mem_cons_of_mem b hc)) hleft hright.of_cons
    refine ⟨hrest.left, fun c hc d hd => ?_⟩
    rcases List.mem_cons.mp hc with rfl | hc
    · have hmem : d ∈ leftFront ++ leftRest := List.mem_append_right leftFront hd
      have hpd := hl d hmem
      rw [hnext] at hmem hl hleft
      rcases List.mem_cons.mp hmem with rfl | hmem
      · exact hba
      · exact htrans.lt_of_lt_of_isLE (hr c List.mem_cons_self) (hl a List.mem_cons_self) hpd hba
          (List.rel_of_pairwise_cons hleft hmem)
    · exact hrest.right c hc d hd

end Taken

omit [OrientedCmp cmp] in
/-- A shorter front of a list is the start of a longer one; a middle stands between both. -/
theorem exists_middle {front rest front' rest' : List α} (h : front ++ rest = front' ++ rest')
    (hle : front.length ≤ front'.length) :
    ∃ middle, front' = front ++ middle ∧ rest = middle ++ rest' ∧
      rest.take (front'.length - front.length) = middle := by
  obtain ⟨middle, rfl⟩ := List.prefix_of_prefix_length_le
    (List.prefix_append front rest) (h ▸ List.prefix_append front' rest') hle
  rw [List.append_assoc] at h
  obtain rfl := List.append_cancel_left h
  exact ⟨middle, rfl, rfl, by simp⟩

section Cuts

variable {leftFront leftRest rightFront rightRest leftFront' leftRest' rightFront' rightRest' :
  List α}

/-- A cut that leaves no fewer members before it than another does not cross it. -/
theorem IsCut.length_le (hcut : IsCut cmp leftFront leftRest rightFront rightRest)
    (hcut' : IsCut cmp leftFront' leftRest' rightFront' rightRest')
    (hleft : leftFront ++ leftRest = leftFront' ++ leftRest')
    (hright : rightFront ++ rightRest = rightFront' ++ rightRest')
    (hle : leftFront.length + rightFront.length ≤ leftFront'.length + rightFront'.length) :
    leftFront.length ≤ leftFront'.length ∧ rightFront.length ≤ rightFront'.length := by
  -- a member that only one of the cuts has in front, in the left list or in the right one
  have hcrossed : ∀ {front rest front' rest' : List α}, front ++ rest = front' ++ rest' →
      front.length < front'.length → ∃ a ∈ rest, a ∈ front' := by
    intro front rest front' rest' h hlt
    obtain ⟨middle, rfl, rfl, -⟩ := exists_middle h (Nat.le_of_lt hlt)
    cases middle with
    | nil => simp at hlt
    | cons a middle => exact ⟨a, by simp, by simp⟩
  have hnot : ∀ {a b : α}, (cmp a b).isLE = true → cmp b a ≠ .lt := by
    intro a b hab hba
    rw [isGT_of_lt hba] at hab
    cases hab
  constructor
  · by_contra hlt
    obtain ⟨a, ha', ha⟩ := hcrossed hleft.symm (by omega)
    obtain ⟨b, hb, hb'⟩ := hcrossed hright (by omega)
    exact hnot (hcut.left a ha b hb) (hcut'.right b hb' a ha')
  · by_contra hlt
    obtain ⟨b, hb', hb⟩ := hcrossed hright.symm (by omega)
    obtain ⟨a, ha, ha'⟩ := hcrossed hleft (by omega)
    exact hnot (hcut'.left a ha' b hb') (hcut.right b hb a ha)

/-- What stands before a cut is sorted apart from what stands behind it. -/
theorem IsCut.join (htrans : IsTransOn cmp p)
    (hcut : IsCut cmp leftFront leftRest rightFront rightRest)
    (hp : ∀ a ∈ leftFront ++ leftRest ++ (rightFront ++ rightRest), p a)
    (hleft : (leftFront ++ leftRest).Pairwise fun a b => (cmp a b).isLE = true)
    (hright : (rightFront ++ rightRest).Pairwise fun a b => (cmp a b).isLE = true)
    {front rest : List α} (hfront : IsStableSort cmp (leftFront ++ rightFront) front)
    (hrest : IsStableSort cmp (leftRest ++ rightRest) rest) :
    IsStableSort cmp (leftFront ++ leftRest ++ (rightFront ++ rightRest)) (front ++ rest) := by
  have hperm : (leftFront ++ rightFront ++ (leftRest ++ rightRest)).Perm
      (leftFront ++ leftRest ++ (rightFront ++ rightRest)) := by
    simp only [List.append_assoc]
    exact .append_left leftFront (by
      simp only [← List.append_assoc]
      exact List.perm_append_comm.append_right rightRest)
  have hp' : ∀ a ∈ leftFront ++ rightFront ++ (leftRest ++ rightRest), p a :=
    fun a ha => hp a (hperm.mem_iff.mp ha)
  refine hfront.append hperm hrest (fun a ha b hb => ?_) fun c hc => ?_
  · have hsorted := (List.pairwise_append.mp hleft).2.2
    have hsorted' := (List.pairwise_append.mp hright).2.2
    rcases List.mem_append.mp ha with ha | ha <;> rcases List.mem_append.mp hb with hb | hb
    · exact hsorted a ha b hb
    · exact hcut.left a ha b hb
    · rw [hcut.right a ha b hb]
      rfl
    · exact hsorted' a ha b hb
  · rw [hfront.filter_eq htrans (fun a ha => hp' a (List.mem_append_left _ ha)) (hp c hc),
      hrest.filter_eq htrans (fun a ha => hp' a (List.mem_append_right _ ha)) (hp c hc)]
    simp only [List.filter_append, List.append_assoc, List.append_cancel_left_eq]
    simp only [← List.append_assoc, List.append_cancel_right_eq]
    -- a tie behind the cut on the left and one before it on the right are not both there
    by_cases hnone : rightFront.filter (fun b => cmp c b == .eq) = []
    · rw [hnone, List.append_nil, List.nil_append]
    · have hnone' : leftRest.filter (fun b => cmp c b == .eq) = [] := by
        obtain ⟨b, hb⟩ := List.exists_mem_of_ne_nil _ hnone
        obtain ⟨hb, hcb⟩ := List.mem_filter.mp hb
        refine List.filter_eq_nil_iff.mpr fun a ha hca => ?_
        have hpb := hp' b (List.mem_append_left _ (List.mem_append_right _ hb))
        have hpa := hp' a (List.mem_append_right _ (List.mem_append_left _ ha))
        have heq := (htrans.eq_iff (hp c hc) hpb hpa (beq_iff_eq.mp hcb)).mp (beq_iff_eq.mp hca)
        rw [hcut.right b hb a ha] at heq
        cases heq
      rw [hnone', List.append_nil, List.nil_append]

end Cuts

/-! ## Short lists -/

omit [OrientedCmp cmp] in
/-- What a merge from both ends is made of: both ends cut the halves, the front before the back, and
what is between the cuts stays as it is. The ends meet if the cuts do not cross. -/
theorem mergeHalves?_eq (less : α → α → Bool) {left right : List α}
    (hle : left.length ≤ right.length) :
    ∃ front leftFront leftRest rightFront rightRest back leftBack leftStart rightBack rightStart,
      left = leftFront ++ leftRest ∧ right = rightFront ++ rightRest ∧
      left = leftStart ++ leftBack ∧ right = rightStart ++ rightBack ∧
      front.length = left.length ∧ back.length = left.length ∧
      IsTaken less front leftFront leftRest rightFront rightRest ∧
      IsTaken (fun a b => less b a) back rightBack.reverse rightStart.reverse leftBack.reverse
        leftStart.reverse ∧
      mergeHalves? less left right =
        if leftFront.length ≤ leftStart.length ∧ rightFront.length ≤ rightStart.length then
          some (front ++ (leftRest.take (leftStart.length - leftFront.length) ++
            rightRest.take (rightStart.length - rightFront.length)) ++ back.reverse)
        else none := by
  obtain ⟨leftFront, rightFront, hleft, hright, hfront, htaken⟩ :=
    exists_isTaken less left.length left right (Nat.le_refl left.length) hle
  obtain ⟨rightBack, leftBack, hright', hleft', hback, htaken'⟩ :=
    exists_isTaken (fun a b => less b a) left.length right.reverse left.reverse
      (by simpa using hle) (by simp)
  unfold mergeHalves?
  generalize takeMerged less left.length left right = taken at hleft hright hfront htaken ⊢
  generalize takeMerged (fun a b => less b a) left.length right.reverse left.reverse = taken'
    at hleft' hright' hback htaken' ⊢
  obtain ⟨front, leftRest, rightRest⟩ := taken
  obtain ⟨back, rightStart, leftStart⟩ := taken'
  dsimp only at hleft hright hfront htaken hleft' hright' hback htaken' ⊢
  refine ⟨front, leftFront, leftRest, rightFront, rightRest, back, leftBack.reverse,
    leftStart.reverse, rightBack.reverse, rightStart.reverse, hleft, hright, ?_, ?_, hfront, hback,
    htaken, by simpa using htaken', ?_⟩
  · rw [← List.reverse_append, ← hleft', List.reverse_reverse]
  · rw [← List.reverse_append, ← hright', List.reverse_reverse]
  · have hl := congrArg List.length hleft
    have hr := congrArg List.length hright
    rw [List.length_append] at hl hr
    simp only [List.length_reverse]
    have hcondition : left.length ≤ leftStart.length + leftRest.length ∧
        right.length ≤ rightStart.length + rightRest.length ↔
        leftFront.length ≤ leftStart.length ∧ rightFront.length ≤ rightStart.length := by omega
    rw [if_congr hcondition rfl rfl]
    have hl' : leftStart.length + leftRest.length - left.length =
        leftStart.length - leftFront.length := by omega
    have hr' : rightStart.length + rightRest.length - right.length =
        rightStart.length - rightFront.length := by omega
    rw [hl', hr']

omit [OrientedCmp cmp] in
/-- A merge from both ends keeps the members of both halves. -/
theorem mergeHalves?_perm {left right out : List α} (hle : left.length ≤ right.length)
    (h : mergeHalves? less left right = some out) : out.Perm (left ++ right) := by
  obtain ⟨front, leftFront, leftRest, rightFront, rightRest, back, leftBack, leftStart, rightBack,
    rightStart, hleft, hright, hleft', hright', -, -, htaken, htaken', heq⟩ :=
      mergeHalves?_eq less hle
  rw [heq] at h
  split at h
  · rename_i hcross
    obtain rfl := Option.some.inj h
    obtain ⟨middle, -, hl, htake⟩ := exists_middle (hleft.symm.trans hleft') hcross.1
    obtain ⟨middle', -, hr, htake'⟩ := exists_middle (hright.symm.trans hright') hcross.2
    have hfront : front.Perm (leftFront ++ rightFront) := by
      rw [htaken.front_eq]
      exact List.merge_perm_append _
    have hback : back.reverse.Perm (leftBack ++ rightBack) := by
      rw [htaken'.front_eq]
      refine (List.reverse_perm _).trans ((List.merge_perm_append _).trans ?_)
      rw [← List.reverse_append]
      exact List.reverse_perm _
    rw [htake, htake', hleft, hright, hl, hr]
    classical
    refine List.perm_iff_count.mpr fun x => ?_
    have hcount := hfront.count_eq x
    have hcount' := hback.count_eq x
    simp only [List.count_append] at hcount hcount' ⊢
    omega
  · cases h

omit [OrientedCmp cmp] in
/-- A cut of two lists cuts shorter rests too. -/
theorem IsCut.mono {leftFront leftRest leftRest' rightFront rightRest rightRest' : List α}
    (h : IsCut cmp leftFront leftRest rightFront rightRest) (hleft : leftRest' ⊆ leftRest)
    (hright : rightRest' ⊆ rightRest) : IsCut cmp leftFront leftRest' rightFront rightRest' :=
  ⟨fun a ha b hb => h.left a ha b (hright hb), fun b hb a ha => h.right b hb a (hleft ha)⟩

/-- The parts of two lists that two cuts leave are merged apart, if at most one member is between the
cuts. -/
theorem isStableSort_parts (htrans : IsTransOn cmp p)
    {leftFront middle leftBack rightFront middle' rightBack : List α}
    (hp : ∀ a ∈ leftFront ++ middle ++ leftBack ++ (rightFront ++ middle' ++ rightBack), p a)
    (hleft : (leftFront ++ middle ++ leftBack).Pairwise fun a b => (cmp a b).isLE = true)
    (hright : (rightFront ++ middle' ++ rightBack).Pairwise fun a b => (cmp a b).isLE = true)
    (hcut : IsCut cmp leftFront (middle ++ leftBack) rightFront (middle' ++ rightBack))
    (hcut' : IsCut cmp (leftFront ++ middle) leftBack (rightFront ++ middle') rightBack)
    (hone : (middle ++ middle').length ≤ 1) :
    IsStableSort cmp (leftFront ++ middle ++ leftBack ++ (rightFront ++ middle' ++ rightBack))
      ((leftFront.merge rightFront fun a b => !lessBy cmp b a) ++ (middle ++ middle') ++
        (rightBack.reverse.merge leftBack.reverse fun b a => !lessBy cmp b a).reverse) := by
  obtain ⟨hleft', hleftBack, -⟩ := List.pairwise_append.mp hleft
  obtain ⟨hright', hrightBack, -⟩ := List.pairwise_append.mp hright
  have hfront : IsStableSort cmp (leftFront ++ rightFront)
      (leftFront.merge rightFront fun a b => !lessBy cmp b a) := by
    refine IsStableSort.merge htrans (fun a ha => hp a ?_)
      (.refl (List.pairwise_append.mp hleft').1) (.refl (List.pairwise_append.mp hright').1)
    rcases List.mem_append.mp ha with ha | ha <;> simp [ha]
  have hmiddle : IsStableSort cmp (middle ++ middle') (middle ++ middle') := by
    refine .refl ?_
    generalize middle ++ middle' = one at hone
    match one, hone with
    | [], _ => exact .nil
    | [a], _ => exact List.pairwise_singleton _ a
  have hback : IsStableSort cmp (leftBack ++ rightBack)
      (rightBack.reverse.merge leftBack.reverse fun b a => !lessBy cmp b a).reverse := by
    refine IsStableSort.mergeFromBack htrans (fun a ha => hp a ?_) (.refl hleftBack)
      (.refl hrightBack)
    rcases List.mem_append.mp ha with ha | ha <;> simp [ha]
  have hcut : IsCut cmp leftFront middle rightFront middle' :=
    hcut.mono (List.subset_append_left _ _) (List.subset_append_left _ _)
  have hstart := hcut.join htrans (fun a ha => hp a ?_) hleft' hright' hfront hmiddle
  · exact hcut'.join htrans hp hleft hright hstart hback
  · simp only [List.mem_append] at ha ⊢
    tauto

/-- The ends of a merge meet if the halves are sorted, and give the stable sort of what both were
made of. -/
theorem IsStableSort.mergeHalves (htrans : IsTransOn cmp p) {s t left right : List α}
    (hp : ∀ a ∈ s ++ t, p a) (hle : left.length ≤ right.length)
    (hlt : right.length ≤ left.length + 1) (hs : IsStableSort cmp s left)
    (ht : IsStableSort cmp t right) :
    ∃ out, mergeHalves? (lessBy cmp) left right = some out ∧ IsStableSort cmp (s ++ t) out := by
  obtain ⟨front, leftFront, leftRest, rightFront, rightRest, back, leftBack, leftStart, rightBack,
    rightStart, hleft, hright, hleft', hright', hfront, hback, htaken, htaken', heq⟩ :=
      mergeHalves?_eq (lessBy cmp) hle
  have hpl : ∀ a ∈ left, p a := fun a ha => hp a (List.mem_append_left t (hs.mem_iff.mp ha))
  have hpr : ∀ a ∈ right, p a := fun a ha => hp a (List.mem_append_right s (ht.mem_iff.mp ha))
  have hcut : IsCut cmp leftFront leftRest rightFront rightRest :=
    htaken.isCut htrans (hleft ▸ hpl) (hright ▸ hpr) (hleft ▸ hs.ordered) (hright ▸ ht.ordered)
  have hcut' : IsCut cmp leftStart leftBack rightStart rightBack := by
    have hl : leftBack.reverse ++ leftStart.reverse = left.reverse := by
      rw [hleft', List.reverse_append]
    have hr : rightBack.reverse ++ rightStart.reverse = right.reverse := by
      rw [hright', List.reverse_append]
    have hflipped : IsTaken (lessBy fun a b => cmp b a) back rightBack.reverse rightStart.reverse
        leftBack.reverse leftStart.reverse := htaken'
    have hturned := hflipped.isCut htrans.flip
      (hr ▸ fun a ha => hpr a (List.mem_reverse.mp ha))
      (hl ▸ fun a ha => hpl a (List.mem_reverse.mp ha))
      (hr ▸ List.pairwise_reverse.mpr ht.ordered) (hl ▸ List.pairwise_reverse.mpr hs.ordered)
    exact ⟨fun a ha b hb => hturned.left b (by simpa using hb) a (by simpa using ha),
      fun b hb a ha => hturned.right a (by simpa using ha) b (by simpa using hb)⟩
  have hlength := htaken.length_eq
  have hlength' := htaken'.length_eq
  have hll := congrArg List.length hleft'
  have hrl := congrArg List.length hright'
  simp only [List.length_reverse, List.length_append] at hlength hlength' hll hrl
  have hcross := hcut.length_le hcut' (hleft.symm.trans hleft') (hright.symm.trans hright')
    (by omega)
  rw [heq, if_pos hcross]
  refine ⟨_, rfl, .of_append htrans hp hs ht ?_⟩
  obtain ⟨middle, rfl, rfl, htake⟩ := exists_middle (hleft.symm.trans hleft') hcross.1
  obtain ⟨middle', rfl, rfl, htake'⟩ := exists_middle (hright.symm.trans hright') hcross.2
  rw [htake, htake', htaken.front_eq, htaken'.front_eq, hleft', hright']
  refine isStableSort_parts htrans (fun a ha => ?_) (hleft' ▸ hs.ordered) (hright' ▸ ht.ordered)
    hcut hcut' ?_
  · rw [← hleft', ← hright'] at ha
    exact (List.mem_append.mp ha).elim (hpl a) (hpr a)
  · simp only [List.length_append] at hll hrl hlength hlength' ⊢
    omega

omit [OrientedCmp cmp] in
/-- Sorting a short list keeps its members. -/
theorem sortShort?_perm {list out : List α} (h : sortShort? less list = some out) :
    out.Perm list := by
  unfold sortShort? at h
  split at h
  · obtain rfl := Option.some.inj h
    exact .refl _
  · have hleft := sortHalf_perm less (decide (8 ≤ list.length)) (list.take (list.length / 2))
    have hright := sortHalf_perm less (decide (8 ≤ list.length)) (list.drop (list.length / 2))
    refine (mergeHalves?_perm ?_ h).trans ((hleft.append hright).trans ?_)
    · rw [hleft.length_eq, hright.length_eq, List.length_take, List.length_drop]
      omega
    · rw [List.take_append_drop]

/-- Sorting a short list by a comparison that is transitive on its members is a stable sort. -/
theorem exists_sortShort? (htrans : IsTransOn cmp p) {list : List α} (hp : ∀ a ∈ list, p a) :
    ∃ out, sortShort? (lessBy cmp) list = some out ∧ IsStableSort cmp list out := by
  unfold sortShort?
  split
  · rename_i hlength
    refine ⟨list, rfl, .refl ?_⟩
    match list, hlength with
    | [], _ => exact .nil
    | [a], _ => exact List.pairwise_singleton _ a
  · have hsplit := List.take_append_drop (list.length / 2) list
    have hleft := isStableSort_sortHalf htrans (decide (8 ≤ list.length))
      (list.take (list.length / 2)) fun a ha => hp a (List.mem_of_mem_take ha)
    have hright := isStableSort_sortHalf htrans (decide (8 ≤ list.length))
      (list.drop (list.length / 2)) fun a ha => hp a (List.mem_of_mem_drop ha)
    have hl := hleft.perm.length_eq
    have hr := hright.perm.length_eq
    rw [List.length_take] at hl
    rw [List.length_drop] at hr
    obtain ⟨out, hout, hsorted⟩ := IsStableSort.mergeHalves htrans (hsplit.symm ▸ hp) (by omega)
      (by omega) hleft hright
    exact ⟨out, hout, hsplit ▸ hsorted⟩

/-! ## Merging sorted lists -/

omit [OrientedCmp cmp] in
/-- A merge loses nothing and repeats nothing. -/
theorem merge_perm (less : α → α → Bool) (left right : List α) :
    (merge less left right).Perm (left ++ right) := by
  unfold merge
  split
  · exact List.merge_perm_append _
  · refine (List.reverse_perm _).trans ((List.merge_perm_append _).trans ?_)
    rw [← List.reverse_append]
    exact List.reverse_perm _

/-- From whichever side sorted lists are merged, they are merged to the stable sort. -/
theorem isStableSort_merge (htrans : IsTransOn cmp p) {left right s t : List α}
    (hp : ∀ a ∈ s ++ t, p a) (hs : IsStableSort cmp s left) (ht : IsStableSort cmp t right) :
    IsStableSort cmp (s ++ t) (merge (lessBy cmp) left right) := by
  unfold merge
  split
  · exact hs.merge htrans hp ht
  · exact hs.mergeFromBack htrans hp ht

end RdfStore.Sorting
