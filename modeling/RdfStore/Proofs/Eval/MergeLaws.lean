import RdfStore.Proofs.Eval.Merge

/-!
# Solutions of one width

The solutions of a query all have a place for every slot. Among the solutions of one width the merge
of two is the solution that gives the terms of both and no others; there is one exactly if the two
are compatible. A solution is determined by its width and its terms, so the laws of merging come
from those of this union: it is a partial operation that is commutative and associative, and the
solution that gives nothing is neutral.
-/

set_option autoImplicit false

namespace RdfStore.Eval.Solution

/-- An operation on a class that may be undefined. It does not leave the class, where one order or
grouping of the operands is defined the other is and gives the same, and one member is neutral. -/
structure IsPartialCommMonoid {α : Type} (isMember : α → Prop) (op : α → α → Option α) (one : α) :
    Prop where
  closed : ∀ a b m, isMember a → isMember b → op a b = some m → isMember m
  comm : ∀ a b, isMember a → isMember b → op a b = op b a
  assoc : ∀ a b c, isMember a → isMember b → isMember c →
    ((op a b).bind fun m => op m c) = (op b c).bind fun m => op a m
  one_mem : isMember one
  op_one : ∀ a, isMember a → op a one = some a

/-- A solution that has a term where one of two has it, the same that they have. -/
structure IsUnion (a b m : Solution) : Prop where
  length_eq : m.length = a.length
  mem_boundSlots : ∀ n, n ∈ m.boundSlots ↔ n ∈ a.boundSlots ∨ n ∈ b.boundSlots
  get?_left : ∀ n ∈ a.boundSlots, m.get? n = a.get? n
  get?_right : ∀ n ∈ b.boundSlots, m.get? n = b.get? n

variable {a b c m row : Solution} {width : Nat}

/-! ## Slots with a term -/

/-- The bound slots of a row are those that it binds. -/
theorem mem_boundSlots {n : Nat} : n ∈ row.boundSlots ↔ row.Binds n := by
  unfold boundSlots Binds get?
  rw [List.mem_filterMap]
  constructor
  · rintro ⟨⟨entry, slot⟩, hmem, hentry⟩
    obtain ⟨t, ht, rfl⟩ := Option.map_eq_some_iff.mp hentry
    dsimp only at ht
    rw [List.mem_zipIdx_iff_getElem?.mp hmem, ht]
    rfl
  · intro h
    obtain ⟨t, ht⟩ := Option.isSome_iff_exists.mp h
    exact ⟨(some t, n), List.mem_zipIdx_iff_getElem?.mpr (Option.join_eq_some_iff.mp ht), rfl⟩

/-- A slot with a value is among the bound ones. -/
theorem mem_boundSlots_of_get? {n : Nat} {t : Term} (h : row.get? n = some t) :
    n ∈ row.boundSlots :=
  mem_boundSlots.mpr (Option.isSome_iff_exists.mpr ⟨t, h⟩)

/-- A slot that is not among the bound ones has no value. -/
theorem get?_of_notMem_boundSlots {n : Nat} (h : n ∉ row.boundSlots) : row.get? n = none :=
  Option.not_isSome_iff_eq_none.mp fun hn => h (mem_boundSlots.mpr hn)

/-- Rows share slots both ways or not at all. -/
theorem sharesSlot_comm (a b : Solution) : sharesSlot a b = sharesSlot b a := by
  rw [Bool.eq_iff_iff, sharesSlot_iff, sharesSlot_iff]
  simp only [and_comm]

/-! ## Unions -/

/-- Cutting off free slots makes no row longer. -/
theorem length_trimEnd_le (row : Solution) : (trimEnd row).length ≤ row.length :=
  length_trimEnd_le_iff.mpr fun _ hn => get?_of_length_le hn

/-- A merge with a solution that is not wider adds no slots. -/
theorem length_overlay_of_le (h : b.length ≤ a.length) : (overlay a b).length = a.length := by
  rw [length_overlay]
  exact Nat.max_eq_left (Nat.le_trans (length_trimEnd_le b) h)

/-- Rows of one width are merged to a row of this width. -/
theorem length_merge? (ha : a.length = width) (hb : b.length = width)
    (h : merge? a b = some m) : m.length = width := by
  unfold merge? at h
  split at h
  · cases h
    rw [length_overlay_of_le (Nat.le_of_eq (hb.trans ha.symm)), ha]
  · cases h

/-- Two solutions of one width are the same if they have the same terms in the same slots. -/
theorem eq_of_boundSlots (hlength : a.length = b.length)
    (hslots : ∀ n, n ∈ a.boundSlots ↔ n ∈ b.boundSlots)
    (h : ∀ n ∈ a.boundSlots, a.get? n = b.get? n) : a = b := by
  apply ext_get? hlength
  intro n
  by_cases hn : n ∈ a.boundSlots
  · exact h n hn
  · rw [get?_of_notMem_boundSlots hn, get?_of_notMem_boundSlots fun hb => hn ((hslots n).mpr hb)]

/-- There is at most one union of two solutions. -/
theorem IsUnion.unique (h : IsUnion a b m) (h' : IsUnion a b c) : m = c := by
  refine eq_of_boundSlots (h.length_eq.trans h'.length_eq.symm) (fun n => ?_) fun n hn => ?_
  · rw [h.mem_boundSlots, h'.mem_boundSlots]
  · rcases (h.mem_boundSlots n).mp hn with hleft | hright
    · rw [h.get?_left n hleft, h'.get?_left n hleft]
    · rw [h.get?_right n hright, h'.get?_right n hright]

/-- What is the union of two rows is their union the other way round. -/
theorem IsUnion.symm (hlength : a.length = b.length) (h : IsUnion a b m) : IsUnion b a m where
  length_eq := h.length_eq.trans hlength
  mem_boundSlots n := (h.mem_boundSlots n).trans or_comm
  get?_left := h.get?_right
  get?_right := h.get?_left

/-- What has a union is compatible: the union gives the term of both. -/
theorem IsUnion.compatible (h : IsUnion a b m) : compatible a b = true := by
  rw [compatible_iff]
  intro n t u ht hu
  have hleft := h.get?_left n (mem_boundSlots_of_get? ht)
  have hright := h.get?_right n (mem_boundSlots_of_get? hu)
  rw [ht] at hleft
  rw [hleft, hu] at hright
  exact Option.some.inj hright

/-- A row laid over one that agrees with it is their union. -/
theorem isUnion_overlay (hlength : b.length = a.length) (h : compatible a b = true) :
    IsUnion a b (overlay a b) where
  length_eq := length_overlay_of_le (Nat.le_of_eq hlength)
  mem_boundSlots n := by
    simp only [Solution.mem_boundSlots, Binds, get?_overlay, Option.isSome_or, Bool.or_eq_true]
  get?_left n hn := by
    obtain ⟨t, ht⟩ := Option.isSome_iff_exists.mp (Solution.mem_boundSlots.mp hn)
    rw [get?_overlay, ht, Option.some_or]
  get?_right n hn := by
    obtain ⟨u, hu⟩ := Option.isSome_iff_exists.mp (Solution.mem_boundSlots.mp hn)
    rw [get?_overlay, hu]
    cases ha : a.get? n with
    | none => rfl
    | some t => rw [compatible_iff.mp h n t u ha hu, Option.some_or]

/-- The merge of two solutions of one width is their union. -/
theorem merge?_eq_some_iff (hlength : b.length = a.length) :
    merge? a b = some m ↔ IsUnion a b m := by
  have hmerge : ∀ h : compatible a b = true, merge? a b = some (overlay a b) := by
    intro h
    unfold merge?
    rw [if_pos h]
  constructor
  · intro h
    by_cases hab : compatible a b = true
    · rw [hmerge hab] at h
      cases h
      exact isUnion_overlay hlength hab
    · unfold merge? at h
      rw [if_neg hab] at h
      cases h
  · intro h
    rw [hmerge h.compatible, h.unique (isUnion_overlay hlength h.compatible)]

/-- Rows of one width are merged to the same in either order. -/
theorem merge?_comm (hlength : b.length = a.length) : merge? a b = merge? b a := by
  apply Option.ext
  intro m
  rw [merge?_eq_some_iff hlength, merge?_eq_some_iff hlength.symm]
  exact ⟨IsUnion.symm hlength.symm, IsUnion.symm hlength⟩

/-- Rows can be merged if they agree. -/
theorem isSome_merge? (a b : Solution) : (merge? a b).isSome = compatible a b := by
  unfold merge?
  split
  · rename_i h
    exact h.symm
  · rename_i h
    exact (eq_false_of_ne_true h).symm

/-! ## The laws of merging at one width -/

/-- Among the solutions of one width merging is a partial commutative monoid. Compatibility and
sharing a slot do not depend on the order, a merge is defined for compatible solutions, and it is
the one solution that has the terms of both and no others. -/
theorem merge?_isPartialCommMonoid (width : Nat) :
    IsPartialCommMonoid (fun row : Solution => row.length = width) merge? (unbound width) ∧
      ∀ a b : Solution, a.length = width → b.length = width →
        compatible a b = compatible b a ∧ sharesSlot a b = sharesSlot b a ∧
          (merge? a b).isSome = compatible a b ∧ ∀ m, merge? a b = some m ↔ IsUnion a b m := by
  refine ⟨⟨fun a b m ha hb => length_merge? ha hb, fun a b ha hb => merge?_comm (hb.trans ha.symm),
    fun a b c _ _ _ => merge?_assoc a b c, List.length_replicate,
    fun a _ => merge?_unbound a width⟩, fun a b ha hb => ?_⟩
  exact ⟨compatible_comm a b, sharesSlot_comm a b, isSome_merge? a b,
    fun m => merge?_eq_some_iff (hb.trans ha.symm)⟩

/-- Of three rows with a place for three variables the first two agree on the first variable, and
the third binds the last one only: all groupings merge to the row with all three terms. -/
theorem merge?_isPartialCommMonoid_meeting :
    let first : Solution := [some (.iri ⟨"http://example.org/x"⟩), none, none]
    let second : Solution :=
      [some (.iri ⟨"http://example.org/x"⟩), some (.literal (Literal.plain "v")), none]
    let third : Solution := [none, none, some (.iri ⟨"http://example.org/z"⟩)]
    let whole : Solution := [some (.iri ⟨"http://example.org/x"⟩),
      some (.literal (Literal.plain "v")), some (.iri ⟨"http://example.org/z"⟩)]
    ((merge? first second).bind fun m => merge? m third) = some whole ∧
      (merge? second third).bind (fun m => merge? first m) = some whole ∧
        sharesSlot second first = true ∧ merge? third second = merge? second third := by
  intro first second third whole
  obtain ⟨hlaws, hpairs⟩ := merge?_isPartialCommMonoid 3
  have hleft : ((merge? first second).bind fun m => merge? m third) = some whole := rfl
  have hshares : sharesSlot first second = true := rfl
  exact ⟨hleft, (hlaws.assoc first second third rfl rfl rfl).symm.trans hleft,
    (hpairs first second rfl rfl).2.1.symm.trans hshares, hlaws.comm third second rfl rfl⟩

end RdfStore.Eval.Solution
