import Mathlib.Data.List.Basic
import RdfStore.Sorting.Stable

/-!
# Stable sorts

A stable sort of a list has the members of the list in the order of a comparison, and ties as they
were. There is at most one. The comparison can be reversed, and it has to be transitive on members
with a property only; all members of the list have it. Sorted lists are merged to the stable sort of
what both were made of, from either end, and two lists of which the first has nothing that belongs
behind the second are sorted one by one.
-/

set_option autoImplicit false

namespace RdfStore.Sorting

open Std

variable {α β : Type}

/-- The list has the members of another in the order of a comparison, and ties as they were. -/
structure IsStableSort (cmp : α → α → Ordering) (list sorted : List α) : Prop where
  perm : sorted.Perm list
  ordered : sorted.Pairwise fun a b => (cmp a b).isLE = true
  stable : ∀ a ∈ list, (sorted.filter fun b => cmp a b == .eq) = list.filter fun b => cmp a b == .eq

/-- The comparison is transitive on members with a property. -/
def IsTransOn (cmp : α → α → Ordering) (p : α → Prop) : Prop :=
  ∀ ⦃a b c⦄, p a → p b → p c → (cmp a b).isLE = true → (cmp b c).isLE = true →
    (cmp a c).isLE = true

section Comparison

variable {cmp : α → α → Ordering} {p : α → Prop} {a b c : α}

/-- What is equal is at most the other. -/
theorem isLE_of_eq (h : cmp a b = .eq) : (cmp a b).isLE = true := by
  rw [h]
  rfl

/-- The comparison turned round is transitive on the same members. -/
theorem IsTransOn.flip (h : IsTransOn cmp p) : IsTransOn (fun a b => cmp b a) p :=
  fun _ _ _ ha hb hc hab hbc => h hc hb ha hbc hab

variable [OrientedCmp cmp]

/-- What is not less stands behind, or ties. -/
theorem not_lessBy (cmp : α → α → Ordering) [OrientedCmp cmp] (a b : α) :
    (!lessBy cmp b a) = (cmp a b).isLE := by
  unfold lessBy
  rw [@OrientedCmp.eq_swap _ cmp _ a b]
  cases cmp b a <;> rfl

/-- What is less than another has the other one above it. -/
theorem isGT_of_lt (h : cmp a b = .lt) : (cmp b a).isLE = false := by
  rw [OrientedCmp.gt_of_lt h]
  rfl

/-- What is not at most another is above it. -/
theorem lt_of_not_isLE (h : ¬(cmp a b).isLE = true) : cmp b a = .lt := by
  rw [@OrientedCmp.eq_swap _ cmp _ b a]
  revert h
  cases cmp a b <;> simp

/-- Something at most another is less than whatever the other is less than. -/
theorem IsTransOn.lt_of_isLE_of_lt (h : IsTransOn cmp p) (ha : p a) (hb : p b) (hc : p c)
    (hab : (cmp a b).isLE = true) (hbc : cmp b c = .lt) : cmp a c = .lt := by
  refine lt_of_not_isLE fun hca => ?_
  have hcb := h hc ha hb hca hab
  rw [isGT_of_lt hbc] at hcb
  cases hcb

/-- Something less than another is less than whatever the other is at most. -/
theorem IsTransOn.lt_of_lt_of_isLE (h : IsTransOn cmp p) (ha : p a) (hb : p b) (hc : p c)
    (hab : cmp a b = .lt) (hbc : (cmp b c).isLE = true) : cmp a c = .lt := by
  refine lt_of_not_isLE fun hca => ?_
  have hba := h hb hc ha hbc hca
  rw [isGT_of_lt hab] at hba
  cases hba

/-- Members that tie have the same ties. -/
theorem IsTransOn.eq_iff (h : IsTransOn cmp p) (ha : p a) (hb : p b) (hc : p c)
    (hab : cmp a b = .eq) : cmp a c = .eq ↔ cmp b c = .eq := by
  have hba : cmp b a = .eq := OrientedCmp.eq_symm hab
  constructor
  · intro hac
    refine OrientedCmp.isLE_antisymm (h hb ha hc (isLE_of_eq hba) (isLE_of_eq hac)) ?_
    exact h hc ha hb (isLE_of_eq (OrientedCmp.eq_symm hac)) (isLE_of_eq hab)
  · intro hbc
    refine OrientedCmp.isLE_antisymm (h ha hb hc (isLE_of_eq hab) (isLE_of_eq hbc)) ?_
    exact h hc hb ha (isLE_of_eq (OrientedCmp.eq_symm hbc)) (isLE_of_eq hba)

/-- Comparing by one comparison and then by another is transitive where both are. -/
theorem IsTransOn.lex {cmp' : α → α → Ordering} (h : IsTransOn cmp p) (h' : IsTransOn cmp' p) :
    IsTransOn (compareLex cmp cmp') p := by
  have hiff : ∀ a b, (compareLex cmp cmp' a b).isLE = true ↔
      cmp a b = .lt ∨ cmp a b = .eq ∧ (cmp' a b).isLE = true := by
    intro a b
    unfold compareLex
    cases cmp a b <;> simp
  intro a b c ha hb hc hab hbc
  rw [hiff] at hab hbc ⊢
  rcases hab with hab | ⟨hab, hab'⟩
  · refine .inl (h.lt_of_lt_of_isLE ha hb hc hab ?_)
    rcases hbc with hbc | ⟨hbc, -⟩ <;> rw [hbc] <;> rfl
  · rcases hbc with hbc | ⟨hbc, hbc'⟩
    · exact .inl (h.lt_of_isLE_of_lt ha hb hc (isLE_of_eq hab) hbc)
    · exact .inr ⟨(h.eq_iff ha hb hc hab).mpr hbc, h' ha hb hc hab' hbc'⟩

end Comparison

/-- A comparison that can be reversed still can when it is turned round. -/
instance orientedCmp_flip (cmp : α → α → Ordering) [OrientedCmp cmp] :
    OrientedCmp fun a b => cmp b a :=
  ⟨fun {a b} => @OrientedCmp.eq_swap _ cmp _ b a⟩

/-! ## Stable sorts -/

namespace IsStableSort

variable {cmp : α → α → Ordering} {list out : List α}

/-- A sorted list has the same members. -/
theorem mem_iff (h : IsStableSort cmp list out) {a : α} : a ∈ out ↔ a ∈ list := h.perm.mem_iff

/-- Sorting by a key sorts the keys. -/
theorem map {cmp : β → β → Ordering} (f : α → β)
    (h : IsStableSort (fun a b => cmp (f a) (f b)) list out) :
    IsStableSort cmp (list.map f) (out.map f) := by
  refine ⟨h.perm.map f, List.pairwise_map.mpr h.ordered, fun b hb => ?_⟩
  obtain ⟨a, ha, rfl⟩ := List.mem_map.mp hb
  rw [List.filter_map, List.filter_map]
  exact congrArg (List.map f) (h.stable a ha)

/-- A comparison that agrees with another on the members of a list has the same sort. -/
theorem congr {cmp' : α → α → Ordering} (h : IsStableSort cmp list out)
    (hcmp : ∀ a ∈ list, ∀ b ∈ list, cmp a b = cmp' a b) : IsStableSort cmp' list out where
  perm := h.perm
  ordered := h.ordered.imp_of_mem fun ha hb hab => by
    rw [← hcmp _ (h.mem_iff.mp ha) _ (h.mem_iff.mp hb)]
    exact hab
  stable := by
    intro a ha
    have hfilter : ∀ l : List α, (∀ b ∈ l, b ∈ list) →
        (l.filter fun b => cmp' a b == .eq) = l.filter fun b => cmp a b == .eq := by
      intro l hl
      refine List.filter_congr fun b hb => ?_
      rw [hcmp a ha b (hl b hb)]
    rw [hfilter out fun b hb => h.mem_iff.mp hb, hfilter list fun b hb => hb]
    exact h.stable a ha

/-- A list that is in order is its own sort. -/
theorem refl (h : list.Pairwise fun a b => (cmp a b).isLE = true) : IsStableSort cmp list list :=
  ⟨.refl _, h, fun _ _ => rfl⟩

/-- The empty list is sorted. -/
theorem nil : IsStableSort cmp [] [] := refl .nil

/-- A list of one member is sorted. -/
theorem singleton (a : α) : IsStableSort cmp [a] [a] := refl (List.pairwise_singleton _ a)

/-- Lists that stand one behind the other are sorted one by one if all of the first may stand before
all of the second, and ties do. -/
theorem append {s t left right whole : List α} (hperm : (s ++ t).Perm whole)
    (hs : IsStableSort cmp s left) (ht : IsStableSort cmp t right)
    (hle : ∀ a ∈ s, ∀ b ∈ t, (cmp a b).isLE = true)
    (hties : ∀ c ∈ whole, (whole.filter fun b => cmp c b == .eq) =
      (left.filter fun b => cmp c b == .eq) ++ right.filter fun b => cmp c b == .eq) :
    IsStableSort cmp whole (left ++ right) := by
  refine ⟨(hs.perm.append ht.perm).trans hperm, List.pairwise_append.mpr
    ⟨hs.ordered, ht.ordered, fun a ha b hb => hle a (hs.mem_iff.mp ha) b (ht.mem_iff.mp hb)⟩,
    fun c hc => ?_⟩
  rw [List.filter_append, hties c hc]

variable [OrientedCmp cmp]

/-- The list from its back is sorted from the back by the comparison turned round. -/
theorem reverse (h : IsStableSort cmp list out) :
    IsStableSort (fun a b => cmp b a) list.reverse out.reverse := by
  refine ⟨(List.reverse_perm out).trans (h.perm.trans (List.reverse_perm list).symm),
    List.pairwise_reverse.mpr h.ordered, fun a ha => ?_⟩
  have htie : (fun b => cmp b a == .eq) = fun b => cmp a b == .eq := by
    funext b
    rw [@OrientedCmp.eq_swap _ cmp _ b a]
    cases cmp a b <;> rfl
  rw [htie, List.filter_reverse, List.filter_reverse, h.stable a (List.mem_reverse.mp ha)]

/-- The ties of any member with the property are as they were. -/
theorem filter_eq {p : α → Prop} (h : IsStableSort cmp list out) (htrans : IsTransOn cmp p)
    (hlist : ∀ b ∈ list, p b) {a : α} (ha : p a) :
    (out.filter fun b => cmp a b == .eq) = list.filter fun b => cmp a b == .eq := by
  by_cases htied : ∃ b ∈ list, cmp a b = .eq
  · obtain ⟨b, hb, hab⟩ := htied
    have hfilter : ∀ l : List α, (∀ c ∈ l, c ∈ list) →
        (l.filter fun c => cmp a c == .eq) = l.filter fun c => cmp b c == .eq := by
      intro l hl
      refine List.filter_congr fun c hc => ?_
      have hiff := htrans.eq_iff ha (hlist b hb) (hlist c (hl c hc)) hab
      rw [Bool.eq_iff_iff, beq_iff_eq, beq_iff_eq, hiff]
    rw [hfilter out fun c hc => h.mem_iff.mp hc, hfilter list fun c hc => hc]
    exact h.stable b hb
  · have hnone : ∀ b ∈ list, ¬(cmp a b == .eq) = true :=
      fun b hb hab => htied ⟨b, hb, beq_iff_eq.mp hab⟩
    rw [List.filter_eq_nil_iff.mpr hnone,
      List.filter_eq_nil_iff.mpr fun b hb => hnone b (h.mem_iff.mp hb)]

end IsStableSort

/-- Two lists in one order are the same when their ties are. -/
theorem eq_of_ordered {cmp : α → α → Ordering} [OrientedCmp cmp] {out other : List α}
    (hperm : out.Perm other) (hout : out.Pairwise fun a b => (cmp a b).isLE = true)
    (hother : other.Pairwise fun a b => (cmp a b).isLE = true)
    (hties : ∀ a ∈ out,
      (out.filter fun b => cmp a b == .eq) = other.filter fun b => cmp a b == .eq) :
    out = other := by
  induction out generalizing other with
  | nil => exact hperm.nil_eq
  | cons a rest ih =>
    cases other with
    | nil => exact absurd hperm.length_eq nofun
    | cons b others =>
      obtain ⟨hfirst, hrest⟩ := List.pairwise_cons.mp hout
      obtain ⟨hfirst', hothers⟩ := List.pairwise_cons.mp hother
      have hself : ∀ c : α, cmp c c = .eq := fun c => ReflCmp.compare_self
      have hab : (cmp a b).isLE = true := by
        rcases List.mem_cons.mp (hperm.mem_iff.mpr List.mem_cons_self) with rfl | hb
        · rw [hself]
          rfl
        · exact hfirst b hb
      have hba : (cmp b a).isLE = true := by
        rcases List.mem_cons.mp (hperm.mem_iff.mp List.mem_cons_self) with rfl | ha
        · rw [hself]
          rfl
        · exact hfirst' a ha
      have htie : cmp a b = .eq := OrientedCmp.isLE_antisymm hab hba
      -- the ties of the first member start with it on both sides
      have hheads := hties a List.mem_cons_self
      rw [List.filter_cons_of_pos (by rw [hself]; rfl),
        List.filter_cons_of_pos (by rw [htie]; rfl)] at hheads
      obtain rfl := (List.cons.inj hheads).1
      refine congrArg (a :: ·) (ih hperm.cons_inv hrest hothers fun c hc => ?_)
      have htail := hties c (List.mem_cons_of_mem _ hc)
      simp only [List.filter_cons] at htail
      split at htail
      · exact (List.cons.inj htail).2
      · exact htail

/-- There is one stable sort of a list. -/
theorem IsStableSort.unique {cmp : α → α → Ordering} [OrientedCmp cmp] {list out other : List α}
    (h : IsStableSort cmp list out) (h' : IsStableSort cmp list other) : out = other := by
  refine eq_of_ordered (h.perm.trans h'.perm.symm) h.ordered h'.ordered fun a ha => ?_
  have hmember := h.mem_iff.mp ha
  exact (h.stable a hmember).trans (h'.stable a hmember).symm

/-! ## Merging -/

section Merging

variable {cmp : α → α → Ordering} [OrientedCmp cmp] {p : α → Prop}

/-- Merging lists that are in order gives a list in order. -/
theorem pairwise_merge_isLE (htrans : IsTransOn cmp p) {left right : List α}
    (hleft : ∀ a ∈ left, p a) (hright : ∀ b ∈ right, p b)
    (hl : left.Pairwise fun a b => (cmp a b).isLE = true)
    (hr : right.Pairwise fun a b => (cmp a b).isLE = true) :
    (left.merge right fun a b => !lessBy cmp b a).Pairwise fun a b => (cmp a b).isLE = true := by
  induction left generalizing right with
  | nil => simpa using hr
  | cons a left ih =>
    induction right with
    | nil => simpa using hl
    | cons b right ihr =>
      rw [List.cons_merge_cons, not_lessBy]
      obtain ⟨ha, hl'⟩ := List.pairwise_cons.mp hl
      obtain ⟨hb, hr'⟩ := List.pairwise_cons.mp hr
      have hpa := hleft a List.mem_cons_self
      have hpb := hright b List.mem_cons_self
      split
      · rename_i hab
        refine List.pairwise_cons.mpr ⟨fun c hc => ?_,
          ih (fun c hc => hleft c (List.mem_cons_of_mem a hc)) hright hl' hr⟩
        rcases List.mem_merge.mp hc with hc | hc
        · exact ha c hc
        · rcases List.mem_cons.mp hc with rfl | hcr
          · exact hab
          · exact htrans hpa hpb (hright c hc) hab (hb c hcr)
      · rename_i hab
        have hba : (cmp b a).isLE = true := by
          rw [lt_of_not_isLE hab]
          rfl
        refine List.pairwise_cons.mpr ⟨fun c hc => ?_,
          ihr (fun c hc => hright c (List.mem_cons_of_mem b hc)) hr'⟩
        rcases List.mem_merge.mp hc with hc | hc
        · rcases List.mem_cons.mp hc with rfl | hcl
          · exact hba
          · exact htrans hpb hpa (hleft c hc) hba (ha c hcl)
        · exact hb c hc

/-- Among ties, those of the left list come first. -/
theorem filter_merge_eq (htrans : IsTransOn cmp p) {left right : List α}
    (hleft : ∀ a ∈ left, p a) (hright : ∀ b ∈ right, p b)
    (hl : left.Pairwise fun a b => (cmp a b).isLE = true) {c : α} (hc : p c) :
    ((left.merge right fun a b => !lessBy cmp b a).filter fun b => cmp c b == .eq) =
      (left.filter fun b => cmp c b == .eq) ++ right.filter fun b => cmp c b == .eq := by
  induction left generalizing right with
  | nil => simp
  | cons a left ih =>
    induction right with
    | nil => simp
    | cons b right ihr =>
      rw [List.cons_merge_cons, not_lessBy]
      obtain ⟨ha, hl'⟩ := List.pairwise_cons.mp hl
      have hpa := hleft a List.mem_cons_self
      have hpb := hright b List.mem_cons_self
      split
      · rw [List.filter_cons, ih (fun d hd => hleft d (List.mem_cons_of_mem a hd)) hright hl',
          List.filter_cons (x := a)]
        split <;> rfl
      · rename_i hab
        have hba := lt_of_not_isLE hab
        have hrest := ihr fun d hd => hright d (List.mem_cons_of_mem b hd)
        rw [List.filter_cons, hrest, List.filter_cons (x := b)]
        split
        · rename_i hcb
          have hcb := beq_iff_eq.mp hcb
          -- a tie of `b` is less than all of the left list, which has no ties then
          have hnone : (a :: left).filter (fun d => cmp c d == .eq) = [] := by
            refine List.filter_eq_nil_iff.mpr fun d hd htie => ?_
            have had : (cmp a d).isLE = true := by
              rcases List.mem_cons.mp hd with rfl | hd
              · exact isLE_of_eq ReflCmp.compare_self
              · exact ha d hd
            have hbd := htrans.lt_of_lt_of_isLE hpb hpa (hleft d hd) hba had
            have heq := (htrans.eq_iff hc hpb (hleft d hd) hcb).mp (beq_iff_eq.mp htie)
            rw [hbd] at heq
            cases heq
          rw [hnone]
          rfl
        · rfl

/-- What sorts two sorted lists sorts what both were made of. -/
theorem IsStableSort.of_append (htrans : IsTransOn cmp p) {left right s t out : List α}
    (hp : ∀ a ∈ s ++ t, p a) (hs : IsStableSort cmp s left) (ht : IsStableSort cmp t right)
    (h : IsStableSort cmp (left ++ right) out) : IsStableSort cmp (s ++ t) out := by
  have hperm : (left ++ right).Perm (s ++ t) := hs.perm.append ht.perm
  refine ⟨h.perm.trans hperm, h.ordered, fun a ha => ?_⟩
  rw [h.stable a (hperm.mem_iff.mpr ha), List.filter_append, List.filter_append,
    hs.filter_eq htrans (fun b hb => hp b (List.mem_append_left t hb)) (hp a ha),
    ht.filter_eq htrans (fun b hb => hp b (List.mem_append_right s hb)) (hp a ha)]

/-- Merging sorted lists sorts what both were made of. -/
theorem IsStableSort.merge (htrans : IsTransOn cmp p) {left right s t : List α}
    (hp : ∀ a ∈ s ++ t, p a) (hs : IsStableSort cmp s left) (ht : IsStableSort cmp t right) :
    IsStableSort cmp (s ++ t) (left.merge right fun a b => !lessBy cmp b a) := by
  have hleft : ∀ a ∈ left, p a := fun a ha => hp a (List.mem_append_left t (hs.mem_iff.mp ha))
  have hright : ∀ a ∈ right, p a := fun a ha => hp a (List.mem_append_right s (ht.mem_iff.mp ha))
  refine .of_append htrans hp hs ht ⟨List.merge_perm_append _,
    pairwise_merge_isLE htrans hleft hright hs.ordered ht.ordered, fun a ha => ?_⟩
  have hpa := (List.mem_append.mp ha).elim (hleft a) (hright a)
  rw [filter_merge_eq htrans hleft hright hs.ordered hpa, List.filter_append]

/-- So does merging them from their backs. -/
theorem IsStableSort.mergeFromBack (htrans : IsTransOn cmp p) {left right s t : List α}
    (hp : ∀ a ∈ s ++ t, p a) (hs : IsStableSort cmp s left) (ht : IsStableSort cmp t right) :
    IsStableSort cmp (s ++ t)
      (right.reverse.merge left.reverse fun b a => !lessBy cmp b a).reverse := by
  have hback := ht.reverse.merge htrans.flip (t := s.reverse)
    (fun a ha => hp a (by simpa [or_comm] using ha)) hs.reverse
  have hturned := hback.reverse
  rw [← List.reverse_append, List.reverse_reverse] at hturned
  exact hturned

end Merging

end RdfStore.Sorting
