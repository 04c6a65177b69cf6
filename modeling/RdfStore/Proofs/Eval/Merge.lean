import RdfStore.Eval.Solution

/-!
# Extending and merging solutions

A solution extends another over the same slots when it gives every term that the other
gives. A solution is known by one that extends it and by the slots that have a term.

Merging is a partial operation: it is defined on compatible solutions, and there it takes the
term of either side in each slot. It is associative, and the right operands can be exchanged.
Solutions are compared as lists, so the slots that a merge adds matter too: it has those of the
first solution, and those of the second up to its last term.
-/

set_option autoImplicit false

namespace RdfStore.Eval.Solution

/-! ## Extending -/

section Extending

/-- A slot has a term. -/
def Binds (row : Solution) (slot : Nat) : Prop := (row.get? slot).isSome = true

/-- A solution over the same slots gives every term that a solution gives. -/
structure IsExtendedBy (row other : Solution) : Prop where
  length_eq : other.length = row.length
  get?_eq : ∀ slot t, row.get? slot = some t → other.get? slot = some t

variable {row middle other : Solution}

/-- A solution extends itself. -/
theorem IsExtendedBy.refl (row : Solution) : row.IsExtendedBy row := ⟨rfl, fun _ _ h => h⟩

/-- What extends an extension is one. -/
theorem IsExtendedBy.trans (h : row.IsExtendedBy middle) (h' : middle.IsExtendedBy other) :
    row.IsExtendedBy other :=
  ⟨h'.length_eq.trans h.length_eq, fun slot t ht => h'.get?_eq slot t (h.get?_eq slot t ht)⟩

/-- Solutions of one width with the same terms are the same. -/
theorem ext_get? (hlen : row.length = other.length)
    (h : ∀ slot, row.get? slot = other.get? slot) : row = other := by
  apply List.ext_getElem hlen
  intro slot hrow hother
  have hslot := h slot
  unfold get? at hslot
  rwa [List.getElem?_eq_getElem hrow, List.getElem?_eq_getElem hother, Option.join_some,
    Option.join_some] at hslot

/-- Two solutions that one extends are the same when they give terms in the same slots. -/
theorem eq_of_isExtendedBy (h : row.IsExtendedBy other) (h' : middle.IsExtendedBy other)
    (hbinds : ∀ slot, row.Binds slot ↔ middle.Binds slot) : row = middle := by
  apply ext_get? (h.length_eq.symm.trans h'.length_eq)
  intro slot
  cases hrow : row.get? slot with
  | some t =>
    have hb := (hbinds slot).mp (Option.isSome_iff_exists.mpr ⟨t, hrow⟩)
    obtain ⟨u, hu⟩ := Option.isSome_iff_exists.mp hb
    rw [hu, ← h'.get?_eq slot u hu, h.get?_eq slot t hrow]
  | none =>
    cases hmiddle : middle.get? slot with
    | none => rfl
    | some u =>
      have hb := (hbinds slot).mpr (Option.isSome_iff_exists.mpr ⟨u, hmiddle⟩)
      unfold Binds at hb
      rw [hrow] at hb
      cases hb

/-! ## Binding a slot -/

/-- Binding changes one slot, which is added where it is missing. -/
theorem get?_bind (row : Solution) (slot : Nat) (t : Term) (n : Nat) :
    (row.bind slot t).get? n = if n = slot then some t else row.get? n := by
  have hwidth : slot < (row ++ List.replicate (slot + 1 - row.length) none).length := by
    rw [List.length_append, List.length_replicate]
    omega
  unfold Solution.bind get?
  rw [List.getElem?_set]
  by_cases hn : n = slot
  · rw [if_pos hn.symm, if_pos hwidth, if_pos hn, Option.join_some]
  · rw [if_neg (Ne.symm hn), if_neg hn, List.getElem?_append]
    split
    · rfl
    · rename_i hlong
      rw [List.getElem?_replicate, List.getElem?_eq_none (Nat.not_lt.mp hlong)]
      split <;> rfl

/-- Binding a slot makes a row just long enough for it. -/
theorem length_bind (row : Solution) (slot : Nat) (t : Term) :
    (row.bind slot t).length = max row.length (slot + 1) := by
  unfold Solution.bind
  rw [List.length_set, List.length_append, List.length_replicate]
  omega

/-- Binding a slot without a term keeps all terms. -/
theorem get?_bind_of_get? {slot n : Nat} {u : Term} (t : Term) (hfree : row.get? slot = none)
    (hu : row.get? n = some u) : (row.bind slot t).get? n = some u := by
  rw [get?_bind, if_neg]
  · exact hu
  · rintro rfl
    rw [hfree] at hu
    cases hu

/-- Binding a slot adds this slot to those that are bound. -/
theorem binds_bind (row : Solution) (slot : Nat) (t : Term) (n : Nat) :
    (row.bind slot t).Binds n ↔ row.Binds n ∨ n = slot := by
  unfold Binds
  rw [get?_bind]
  by_cases hn : n = slot
  · simp only [hn, if_true, Option.isSome_some, or_true]
  · simp only [hn, if_false, or_false]

/-- Binding a slot without a term extends a solution. -/
theorem isExtendedBy_bind {slot : Nat} (h : slot < row.length) (t : Term)
    (hfree : row.get? slot = none) : row.IsExtendedBy (row.bind slot t) where
  length_eq := by
    rw [length_bind]
    omega
  get?_eq _ _ hu := get?_bind_of_get? t hfree hu

end Extending

variable {a b c row : Solution}

/-! ## Terms by slot -/

/-- The empty row binds nothing. -/
theorem get?_nil (n : Nat) : get? [] n = none := rfl

/-- The first slot of a row holds its first entry. -/
theorem get?_cons_zero (s : Option Term) (row : Solution) : get? (s :: row) 0 = s := rfl

/-- The slots of a row are shifted by an entry in front. -/
theorem get?_cons_succ (s : Option Term) (row : Solution) (n : Nat) :
    get? (s :: row) (n + 1) = row.get? n := rfl

/-- Behind its end a row binds nothing. -/
theorem get?_of_length_le {n : Nat} (h : row.length ≤ n) : row.get? n = none := by
  unfold get?
  rw [List.getElem?_eq_none h]
  rfl

/-- A row that binds nothing has no value in any slot. -/
theorem get?_unbound (width n : Nat) : (unbound width).get? n = none := by
  unfold get? unbound
  rw [List.getElem?_replicate]
  split <;> rfl

/-- Cutting off free slots at the end changes no value. -/
theorem get?_trimEnd (row : Solution) (n : Nat) : (trimEnd row).get? n = row.get? n := by
  induction row generalizing n with
  | nil => rfl
  | cons s rest ih =>
    unfold trimEnd
    split
    · rename_i hrest
      cases n with
      | zero => rfl
      | succ n =>
        rw [get?_cons_succ, ← ih n, hrest]
        rfl
    · cases n with
      | zero => rfl
      | succ n => exact ih n

/-- A row is cut behind the last slot that it binds. -/
theorem length_trimEnd_cons (s : Option Term) (row : Solution) :
    (trimEnd (s :: row)).length =
      if s = none ∧ trimEnd row = [] then 0 else (trimEnd row).length + 1 := by
  cases s with
  | some t => simp [trimEnd]
  | none => cases hrow : trimEnd row <;> simp [trimEnd, hrow]

/-- A solution is cut after its last term. -/
theorem length_trimEnd_le_iff {k : Nat} :
    (trimEnd row).length ≤ k ↔ ∀ n, k ≤ n → row.get? n = none := by
  constructor
  · intro h n hn
    rw [← get?_trimEnd]
    exact get?_of_length_le (Nat.le_trans h hn)
  · intro h
    induction row generalizing k with
    | nil => exact Nat.zero_le k
    | cons s rest ih =>
      have hrest : ∀ n, k - 1 ≤ n → get? rest n = none := fun n hn => h (n + 1) (by omega)
      have hlength := ih hrest
      rw [length_trimEnd_cons]
      split
      · exact Nat.zero_le k
      · rename_i hne
        cases k with
        | zero =>
          -- nothing at all has a term, so the solution is cut to nothing
          have hnil : trimEnd rest = [] := List.length_eq_zero_iff.mp (Nat.le_zero.mp hlength)
          exact absurd ⟨h 0 (Nat.le_refl 0), hnil⟩ hne
        | succ k => omega

/-- In each slot a merge has the term of the first solution, or else that of the second. -/
theorem get?_overlay (a b : Solution) (n : Nat) :
    (overlay a b).get? n = (a.get? n).or (b.get? n) := by
  induction a generalizing b n with
  | nil =>
    unfold overlay
    rw [get?_trimEnd]
    rfl
  | cons s a ih =>
    cases b with
    | nil => cases n <;> simp [overlay, get?_nil]
    | cons t b =>
      cases n with
      | zero => rfl
      | succ n => exact ih b n

/-- Laying one row over another makes it as long as the last slot of either needs. -/
theorem length_overlay (a b : Solution) :
    (overlay a b).length = max a.length (trimEnd b).length := by
  induction a generalizing b with
  | nil => simp [overlay]
  | cons s a ih =>
    cases b with
    | nil => simp [overlay, trimEnd]
    | cons t b =>
      rw [overlay, List.length_cons, ih, List.length_cons, length_trimEnd_cons]
      split
      · rename_i hb
        rw [hb.2, List.length_nil]
        omega
      · omega

/-- A merge ends with the last term of either side. -/
theorem length_trimEnd_overlay (a b : Solution) :
    (trimEnd (overlay a b)).length = max (trimEnd a).length (trimEnd b).length := by
  apply Nat.le_antisymm
  · rw [length_trimEnd_le_iff]
    intro n hn
    have ha := length_trimEnd_le_iff.mp (Nat.le_max_left (trimEnd a).length (trimEnd b).length) n hn
    have hb := length_trimEnd_le_iff.mp (Nat.le_max_right (trimEnd a).length (trimEnd b).length) n hn
    rw [get?_overlay, ha, hb]
    rfl
  · have hnone : ∀ n, (trimEnd (overlay a b)).length ≤ n →
        a.get? n = none ∧ b.get? n = none := by
      intro n hn
      have h := length_trimEnd_le_iff.mp (Nat.le_refl _) n hn
      rwa [get?_overlay, Option.or_eq_none_iff] at h
    apply Nat.max_le.mpr
    constructor
    · exact length_trimEnd_le_iff.mpr fun n hn => (hnone n hn).1
    · exact length_trimEnd_le_iff.mpr fun n hn => (hnone n hn).2

/-- Solutions are compatible when no slot has two terms. -/
theorem compatible_iff :
    compatible a b = true ↔ ∀ n t u, a.get? n = some t → b.get? n = some u → t = u := by
  unfold compatible
  induction a generalizing b with
  | nil => simp [get?_nil]
  | cons s a ih =>
    cases b with
    | nil => simp [get?_nil]
    | cons o b =>
      rw [List.zip_cons_cons, List.all_cons, Bool.and_eq_true, ih]
      constructor
      · rintro ⟨hfirst, hrest⟩ n t u ht hu
        cases n with
        | zero =>
          rw [get?_cons_zero] at ht hu
          subst ht hu
          simpa using hfirst
        | succ n => exact hrest n t u ht hu
      · intro h
        refine ⟨?_, fun n t u ht hu => h (n + 1) t u ht hu⟩
        cases s with
        | none => rfl
        | some t =>
          cases o with
          | none => rfl
          | some u => simpa using h 0 t u rfl rfl

/-- Solutions share a slot when both bind it. -/
theorem sharesSlot_iff : sharesSlot a b = true ↔ ∃ n, a.Binds n ∧ b.Binds n := by
  unfold sharesSlot Binds
  induction a generalizing b with
  | nil => simp [get?_nil]
  | cons s a ih =>
    cases b with
    | nil => simp [get?_nil]
    | cons o b =>
      rw [List.zip_cons_cons, List.any_cons, Bool.or_eq_true, Bool.and_eq_true, ih]
      constructor
      · rintro (hfirst | ⟨n, hn⟩)
        · exact ⟨0, hfirst⟩
        · exact ⟨n + 1, hn⟩
      · rintro ⟨n, hn⟩
        cases n with
        | zero => exact Or.inl hn
        | succ n => exact Or.inr ⟨n, hn⟩

/-! ## The laws of merging -/

/-- Rows can be laid over each other from the left or from the right. -/
theorem overlay_assoc (a b c : Solution) :
    overlay (overlay a b) c = overlay a (overlay b c) := by
  apply ext_get?
  · rw [length_overlay, length_overlay, length_overlay, length_trimEnd_overlay, Nat.max_assoc]
  · intro n
    simp only [get?_overlay, Option.or_assoc]

/-- Two rows that agree can be laid over a third in either order. -/
theorem overlay_right_comm (h : compatible b c = true) :
    overlay (overlay a b) c = overlay (overlay a c) b := by
  apply ext_get?
  · simp only [length_overlay]
    omega
  · intro n
    simp only [get?_overlay, Option.or_assoc]
    cases hb : b.get? n with
    | none => simp
    | some t =>
      cases hc : c.get? n with
      | none => simp
      | some u => rw [compatible_iff.mp h n t u hb hc]

/-- A solution is compatible with a merge when it is with both sides. -/
theorem compatible_overlay_right (h : compatible b c = true) :
    compatible a (overlay b c) = true ↔ compatible a b = true ∧ compatible a c = true := by
  simp only [compatible_iff, get?_overlay] at h ⊢
  constructor
  · intro hm
    refine ⟨fun n t u ht hu => hm n t u ht (by rw [hu]; rfl), fun n t u ht hu => ?_⟩
    cases hb : b.get? n with
    | none => exact hm n t u ht (by rw [hb, hu]; rfl)
    | some s =>
      rw [← h n _ u hb hu]
      exact hm n t _ ht (by rw [hb]; rfl)
  · rintro ⟨hab, hac⟩ n t u ht hu
    cases hb : b.get? n with
    | none =>
      rw [hb, Option.none_or] at hu
      exact hac n t u ht hu
    | some s =>
      rw [hb, Option.some_or] at hu
      cases hu
      exact hab n t _ ht hb

/-- Rows agree with each other both ways or not at all. -/
theorem compatible_comm (a b : Solution) : compatible a b = compatible b a := by
  rw [Bool.eq_iff_iff, compatible_iff, compatible_iff]
  constructor
  · intro h n t u ht hu
    exact (h n u t hu ht).symm
  · intro h n t u ht hu
    exact (h n u t hu ht).symm

/-- A merge is compatible with a solution when both sides are. -/
theorem compatible_overlay_left (h : compatible a b = true) :
    compatible (overlay a b) c = true ↔ compatible a c = true ∧ compatible b c = true := by
  rw [compatible_comm, compatible_overlay_right h, compatible_comm c a, compatible_comm c b]

/-- A merge that is merged again: all three solutions have to be compatible. -/
theorem bind_merge?_left (a b c : Solution) :
    ((merge? a b).bind fun m => merge? m c) =
      if compatible a b = true ∧ compatible a c = true ∧ compatible b c = true then
        some (overlay (overlay a b) c) else none := by
  unfold merge?
  by_cases hab : compatible a b = true
  · rw [if_pos hab, Option.bind_some]
    simp only [hab, true_and, compatible_overlay_left hab]
  · rw [if_neg hab, if_neg fun h => hab h.1]
    rfl

/-- Three rows are merged from the right if any two of them agree. -/
theorem bind_merge?_right (a b c : Solution) :
    ((merge? b c).bind fun m => merge? a m) =
      if compatible a b = true ∧ compatible a c = true ∧ compatible b c = true then
        some (overlay a (overlay b c)) else none := by
  unfold merge?
  by_cases hbc : compatible b c = true
  · rw [if_pos hbc, Option.bind_some]
    simp only [hbc, and_true, compatible_overlay_right hbc]
  · rw [if_neg hbc, if_neg fun h => hbc h.2.2]
    rfl

/-- Three rows can be merged from the left or from the right. -/
theorem merge?_assoc (a b c : Solution) :
    ((merge? a b).bind fun m => merge? m c) = (merge? b c).bind fun m => merge? a m := by
  rw [bind_merge?_left, bind_merge?_right, overlay_assoc]

/-- It does not matter which of two solutions is merged first. -/
theorem merge?_right_comm (a b c : Solution) :
    ((merge? a b).bind fun m => merge? m c) = (merge? a c).bind fun m => merge? m b := by
  rw [bind_merge?_left, bind_merge?_left]
  by_cases hbc : compatible b c = true
  · have hcb := hbc
    rw [compatible_comm] at hcb
    rw [overlay_right_comm hbc]
    simp only [hbc, hcb, true_and, and_comm]
  · have hcb := hbc
    rw [compatible_comm] at hcb
    rw [if_neg fun h => hbc h.2.2, if_neg fun h => hcb h.2.2]

/-! ## Solutions with at most one term -/

/-- A solution without terms adds nothing. -/
theorem merge?_of_free (h : ∀ n, b.get? n = none) (a : Solution) : merge? a b = some a := by
  have hcompatible : compatible a b = true := by
    rw [compatible_iff]
    intro n t u _ hu
    rw [h n] at hu
    cases hu
  have hlength : (trimEnd b).length ≤ 0 := length_trimEnd_le_iff.mpr fun n _ => h n
  have hoverlay : overlay a b = a := by
    apply ext_get?
    · rw [length_overlay]
      omega
    · intro n
      rw [get?_overlay, h n, Option.or_none]
  unfold merge?
  rw [if_pos hcompatible, hoverlay]

/-- Merging with a row that binds nothing changes nothing. -/
theorem merge?_unbound (a : Solution) (width : Nat) : merge? a (unbound width) = some a :=
  merge?_of_free (get?_unbound width) a

/-- The solution that gives one term. -/
def single (slot : Nat) (t : Term) : Solution := Solution.bind slot t []

/-- A row with one value has it in its slot and nothing elsewhere. -/
theorem get?_single (slot : Nat) (t : Term) (n : Nat) :
    (single slot t).get? n = if n = slot then some t else none :=
  get?_bind [] slot t n

/-- A row with one value ends with its slot. -/
theorem length_trimEnd_single (slot : Nat) (t : Term) :
    (trimEnd (single slot t)).length = slot + 1 := by
  apply Nat.le_antisymm
  · rw [length_trimEnd_le_iff]
    intro n hn
    rw [get?_single, if_neg (by omega)]
  · apply Nat.lt_of_not_le
    intro hshort
    have hnone := length_trimEnd_le_iff.mp hshort slot (Nat.le_refl slot)
    rw [get?_single, if_pos rfl] at hnone
    cases hnone

/-- A row agrees with a single value if it has no other one in the slot. -/
theorem compatible_single {slot : Nat} {t : Term} :
    compatible row (single slot t) = true ↔ ∀ u, row.get? slot = some u → u = t := by
  rw [compatible_iff]
  constructor
  · intro h u hu
    exact h slot u t hu (by rw [get?_single, if_pos rfl])
  · intro h n u v hu hv
    rw [get?_single] at hv
    split at hv
    · rename_i hn
      cases hv
      exact h u (hn ▸ hu)
    · cases hv

/-- Laying a value over a free slot binds it. -/
theorem overlay_single_free {slot : Nat} (h : row.get? slot = none) (t : Term) :
    overlay row (single slot t) = row.bind slot t := by
  apply ext_get?
  · rw [length_overlay, length_trimEnd_single, length_bind]
  · intro n
    rw [get?_overlay, get?_single, get?_bind]
    by_cases hn : n = slot
    · rw [if_pos hn, if_pos hn, hn, h]
      rfl
    · rw [if_neg hn, if_neg hn, Option.or_none]

/-- Laying a value over a slot that has it already changes nothing. -/
theorem overlay_single_bound {slot : Nat} {t : Term} (h : row.get? slot = some t) :
    overlay row (single slot t) = row := by
  have hwidth : slot < row.length := by
    apply Nat.lt_of_not_le
    intro hlong
    rw [get?_of_length_le hlong] at h
    cases h
  apply ext_get?
  · rw [length_overlay, length_trimEnd_single]
    omega
  · intro n
    rw [get?_overlay, get?_single]
    by_cases hn : n = slot
    · rw [if_pos hn, hn, h]
      rfl
    · rw [if_neg hn, Option.or_none]

/-- Merging a single term binds its slot, or finds the term there. -/
theorem merge?_single (row : Solution) (slot : Nat) (t : Term) :
    merge? row (single slot t) =
      match row.get? slot with
      | some u => if u = t then some row else none
      | none => some (row.bind slot t) := by
  unfold merge?
  cases hrow : row.get? slot with
  | none =>
    have hcompatible : compatible row (single slot t) = true := by
      rw [compatible_single]
      intro u hu
      rw [hrow] at hu
      cases hu
    rw [if_pos hcompatible, overlay_single_free hrow]
  | some u =>
    by_cases hut : u = t
    · rw [hut] at hrow
      have hcompatible : compatible row (single slot t) = true := by
        rw [compatible_single]
        intro v hv
        rw [hrow] at hv
        exact (Option.some.inj hv).symm
      rw [if_pos hcompatible, overlay_single_bound hrow]
      simp only [hut, if_true]
    · rw [if_neg fun h => hut (compatible_single.mp h u hrow)]
      simp only [hut, if_false]

end RdfStore.Eval.Solution
