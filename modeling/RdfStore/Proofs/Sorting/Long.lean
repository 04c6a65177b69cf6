import RdfStore.Proofs.Sorting.Short

/-!
# Sorting long lists

Quicksort sorts a list around a pivot: the members that stand before it and the others keep their
order, and are sorted apart. Where no member stands before the pivot, those that tie with it are in
order already. That none does is also known of a list to the right of an older pivot that ties with
the new one, since all of its members are not less than the older one.

The runs of a list, each with the stretch that it was made of, put together are the list. Joining two
runs joins their stretches, so the stack of runs that wait and the last one always hold what was
passed, and in the end one run holds everything. This keeps the members of the list for whatever
comparison, and if the comparison is transitive on them, no step stops and the outcome is the stable
sort.
-/

set_option autoImplicit false

namespace RdfStore.Sorting

open Std

variable {α : Type} {less : α → α → Bool} {cmp : α → α → Ordering}

section Quicksort

variable {p : α → Prop} {giveUp : List α → Option (List α)}

/-! ## Parting a list -/

/-- The members on the side of a list where its pivot is. -/
theorem filter_of_pos {q : α → Bool} {front back : List α} {pivot : α} (h : q pivot = true) :
    (front ++ pivot :: back).filter q = front.filter q ++ pivot :: back.filter q := by
  rw [List.filter_append, List.filter_cons_of_pos h]

/-- The members on the other side. -/
theorem filter_of_neg {q : α → Bool} {front back : List α} {pivot : α} (h : q pivot = false) :
    (front ++ pivot :: back).filter q = front.filter q ++ back.filter q := by
  rw [List.filter_append, List.filter_cons_of_neg (by simp [h])]

/-- If all of one part of a list stands before all of the other, the parts are sorted apart. -/
theorem IsStableSort.partition [OrientedCmp cmp] (htrans : IsTransOn cmp p) {q : α → Bool}
    {list left right : List α} (hp : ∀ a ∈ list, p a)
    (hq : ∀ a ∈ list, ∀ b ∈ list, q a = true → q b = false → cmp a b = .lt)
    (hleft : IsStableSort cmp (list.filter q) left)
    (hright : IsStableSort cmp (list.filter (!q ·)) right) :
    IsStableSort cmp list (left ++ right) := by
  refine hleft.append (List.filter_append_perm q list) hright (fun a ha b hb => ?_) fun c hc => ?_
  · rw [List.mem_filter] at ha hb
    rw [hq a ha.1 b hb.1 ha.2 (by simpa using hb.2)]
    rfl
  · rw [hleft.filter_eq htrans (fun a ha => hp a (List.mem_of_mem_filter ha)) (hp c hc),
      hright.filter_eq htrans (fun a ha => hp a (List.mem_of_mem_filter ha)) (hp c hc),
      List.filter_filter, List.filter_filter]
    -- the ties of a member are all on its side
    have hside : ∀ b ∈ list, cmp c b = .eq → q b = q c := by
      intro b hb hcb
      cases hqb : q b <;> cases hqc : q c
      · rfl
      · rw [hq c hc b hb hqc hqb] at hcb
        cases hcb
      · have hbc := OrientedCmp.eq_symm hcb
        rw [hq b hb c hc hqb hqc] at hbc
        cases hbc
      · rfl
    have hpart : ∀ r : α → Bool, (∀ b ∈ list, cmp c b = .eq → r b = r c) →
        (list.filter fun b => cmp c b == .eq && r b) =
          if r c then list.filter fun b => cmp c b == .eq else [] := by
      intro r hr
      split
      · rename_i hrc
        refine List.filter_congr fun b hb => ?_
        cases hcb : cmp c b == .eq
        · rfl
        · rw [hr b hb (beq_iff_eq.mp hcb), hrc]
          rfl
      · rename_i hrc
        refine List.filter_eq_nil_iff.mpr fun b hb h => ?_
        obtain ⟨hcb, hrb⟩ := Bool.and_eq_true_iff.mp h
        exact hrc ((hr b hb (beq_iff_eq.mp hcb)).symm.trans hrb)
    rw [hpart q hside, hpart (!q ·) fun b hb hcb => congrArg (!·) (hside b hb hcb)]
    cases q c
    · exact (List.nil_append _).symm
    · exact (List.append_nil _).symm

/-- A list around one of its members, with the members of one kind on the side of that member. -/
theorem parts_perm (q : α → Bool) (front back : List α) (pivot : α) :
    (front.filter q ++ pivot :: back.filter q ++ (front ++ back).filter (!q ·)).Perm
      (front ++ pivot :: back) := by
  classical
  refine List.perm_iff_count.mpr fun x => ?_
  have hfront := (List.filter_append_perm q front).count_eq x
  have hback := (List.filter_append_perm q back).count_eq x
  simp only [List.filter_append, List.count_append, List.count_cons] at hfront hback ⊢
  omega

/-! ## Sorting around pivots -/

/-- Quicksort keeps the members of a list. -/
theorem quicksort?_perm (hgive : ∀ list out, giveUp list = some out → out.Perm list) {steps : Nat}
    {ancestor : Option α} {list out : List α}
    (h : quicksort? less giveUp steps ancestor list = some out) : out.Perm list := by
  induction steps generalizing ancestor list out with
  | zero =>
    rw [quicksort?] at h
    split at h
    · exact sortShort?_perm h
    · exact hgive _ _ h
  | succ steps ih =>
    rw [quicksort?] at h
    split at h
    · exact sortShort?_perm h
    have hsplit := List.take_append_drop (pivotPlace less list) list
    dsimp only at h
    generalize list.take _ = front at h hsplit
    generalize list.drop _ = rest at h hsplit
    cases rest with
    | nil => exact hgive _ _ h
    | cons pivot back =>
      dsimp only at h
      rw [← hsplit]
      split at h
      · obtain ⟨greater, hgreater, rfl⟩ := Option.map_eq_some_iff.mp h
        have hparts := parts_perm (fun a => !less pivot a) front back pivot
        simp only [Bool.not_not] at hparts
        exact ((ih hgreater).append_left _).trans hparts
      · obtain ⟨right, hright, h⟩ := Option.bind_eq_some_iff.mp h
        obtain ⟨left, hleft, rfl⟩ := Option.map_eq_some_iff.mp h
        have hparts := parts_perm (fun a => !less a pivot) front back pivot
        simp only [Bool.not_not] at hparts
        exact ((ih hleft).append (ih hright)).trans (List.perm_append_comm.trans hparts)

section Sorted

variable [OrientedCmp cmp]

/-- Nothing is less than itself. -/
theorem lessBy_self (cmp : α → α → Ordering) [OrientedCmp cmp] (a : α) :
    lessBy cmp a a = false := by
  have hself : cmp a a = .eq := ReflCmp.compare_self
  unfold lessBy
  rw [hself]
  rfl

/-- The members that are less than a pivot and the others are sorted apart. -/
theorem isStableSort_around (htrans : IsTransOn cmp p) {front back left right : List α} {pivot : α}
    (hp : ∀ a ∈ front ++ pivot :: back, p a)
    (hleft : IsStableSort cmp ((front ++ back).filter (lessBy cmp · pivot)) left)
    (hright : IsStableSort cmp (front.filter (!lessBy cmp · pivot) ++
      pivot :: back.filter (!lessBy cmp · pivot)) right) :
    IsStableSort cmp (front ++ pivot :: back) (left ++ right) := by
  have hpivot : p pivot := hp pivot (by simp)
  have hself := lessBy_self cmp pivot
  refine .partition htrans hp (q := (lessBy cmp · pivot)) (fun a ha b hb hqa hqb => ?_) ?_ ?_
  · refine htrans.lt_of_lt_of_isLE (hp a ha) hpivot (hp b hb) (beq_iff_eq.mp hqa) ?_
    rw [← not_lessBy, hqb]
    rfl
  · rw [filter_of_neg (q := (lessBy cmp · pivot)) hself, ← List.filter_append]
    exact hleft
  · rw [filter_of_pos (by rw [hself]; rfl)]
    exact hright

/-- If no member is less than a pivot, those that are not greater are in order. -/
theorem isStableSort_least (htrans : IsTransOn cmp p) {front back right : List α} {pivot : α}
    (hp : ∀ a ∈ front ++ pivot :: back, p a)
    (hleast : ∀ a ∈ front ++ pivot :: back, (cmp pivot a).isLE = true)
    (hright : IsStableSort cmp ((front ++ back).filter (lessBy cmp pivot)) right) :
    IsStableSort cmp (front ++ pivot :: back) (front.filter (!lessBy cmp pivot ·) ++
      pivot :: back.filter (!lessBy cmp pivot ·) ++ right) := by
  have hpivot : p pivot := hp pivot (by simp)
  have hself := lessBy_self cmp pivot
  have hle : ∀ a, (!lessBy cmp pivot a) = true → (cmp a pivot).isLE = true := by
    intro a ha
    rwa [← not_lessBy]
  rw [← filter_of_pos (q := (!lessBy cmp pivot ·)) (by rw [hself]; rfl)]
  refine .partition htrans hp (q := (!lessBy cmp pivot ·)) (fun a ha b hb hqa hqb => ?_) ?_ ?_
  · refine htrans.lt_of_isLE_of_lt (hp a ha) hpivot (hp b hb) (hle a hqa) ?_
    exact beq_iff_eq.mp (Bool.not_inj hqb)
  · refine .refl (List.pairwise_of_forall_mem_list fun a ha b hb => ?_)
    obtain ⟨ha, hqa⟩ := List.mem_filter.mp ha
    obtain ⟨hb, -⟩ := List.mem_filter.mp hb
    exact htrans (hp a ha) hpivot (hp b hb) (hle a hqa) (hleast b hb)
  · simp only [Bool.not_not]
    rw [filter_of_neg hself, ← List.filter_append]
    exact hright

/-- A pivot is not greater than any member, if none of the others is less than it, or it is not
greater than an older pivot that no member is less than. -/
theorem isLE_of_least (htrans : IsTransOn cmp p) {front back : List α} {pivot : α}
    {ancestor : Option α} (hp : ∀ a ∈ front ++ pivot :: back, p a)
    (hancestor : ∀ a ∈ ancestor, p a ∧ ∀ b ∈ front ++ pivot :: back, (cmp a b).isLE = true)
    (h : (((front ++ back).filter (lessBy cmp · pivot)).isEmpty ||
      ancestor.any fun a => !lessBy cmp a pivot) = true) :
    ∀ a ∈ front ++ pivot :: back, (cmp pivot a).isLE = true := by
  intro a ha
  rcases Bool.or_eq_true_iff.mp h with hempty | hold
  · have hnone := List.filter_eq_nil_iff.mp (List.isEmpty_iff.mp hempty)
    rw [← not_lessBy]
    rcases List.mem_append.mp ha with hmem | hmem
    · simpa using hnone a (List.mem_append_left back hmem)
    · rcases List.mem_cons.mp hmem with rfl | hmem
      · rw [lessBy_self]
        rfl
      · simpa using hnone a (List.mem_append_right front hmem)
  · obtain ⟨old, rfl, hless⟩ := (Option.any_eq_true _ _).mp hold
    obtain ⟨hpold, hle⟩ := hancestor old rfl
    rw [not_lessBy] at hless
    exact htrans (hp pivot (by simp)) hpold (hp a ha) hless (hle a ha)

/-- Quicksort by a comparison that is transitive on the members of a list is a stable sort. No member
is less than the older pivot to whose right the list stands. -/
theorem exists_quicksort? (htrans : IsTransOn cmp p)
    (hgive : ∀ list, (∀ a ∈ list, p a) → ∃ out, giveUp list = some out ∧ IsStableSort cmp list out)
    (steps : Nat) (ancestor : Option α) {list : List α} (hp : ∀ a ∈ list, p a)
    (hancestor : ∀ a ∈ ancestor, p a ∧ ∀ b ∈ list, (cmp a b).isLE = true) :
    ∃ out, quicksort? (lessBy cmp) giveUp steps ancestor list = some out ∧
      IsStableSort cmp list out := by
  induction steps generalizing ancestor list with
  | zero =>
    rw [quicksort?]
    split
    · exact exists_sortShort? htrans hp
    · exact hgive list hp
  | succ steps ih =>
    rw [quicksort?]
    split
    · exact exists_sortShort? htrans hp
    have hsplit := List.take_append_drop (pivotPlace (lessBy cmp) list) list
    dsimp only
    generalize list.take _ = front at hsplit ⊢
    generalize list.drop _ = rest at hsplit ⊢
    cases rest with
    | nil => exact hgive list hp
    | cons pivot back =>
      subst hsplit
      dsimp only
      have hpart : ∀ q : α → Bool, ∀ a ∈ (front ++ back).filter q, a ∈ front ++ pivot :: back := by
        intro q a ha
        have hmem := List.mem_of_mem_filter ha
        simp only [List.mem_append, List.mem_cons] at hmem ⊢
        tauto
      split
      · rename_i hleast
        obtain ⟨right, hright, hsorted⟩ := ih none
          (fun a ha => hp a (hpart (lessBy cmp pivot) a ha)) nofun
        exact ⟨_, congrArg (Option.map _) hright, isStableSort_least htrans hp
          (isLE_of_least htrans hp hancestor hleast) hsorted⟩
      · have hothers : ∀ a ∈ front.filter (!lessBy cmp · pivot) ++
            pivot :: back.filter (!lessBy cmp · pivot),
            a ∈ front ++ pivot :: back ∧ (cmp pivot a).isLE = true := by
          intro a ha
          rw [← filter_of_pos (q := (!lessBy cmp · pivot)) (by rw [lessBy_self]; rfl)] at ha
          obtain ⟨hmem, hle⟩ := List.mem_filter.mp ha
          exact ⟨hmem, by rwa [← not_lessBy]⟩
        obtain ⟨right, hright, hsorted⟩ := ih (some pivot)
          (fun a ha => hp a (hothers a ha).1)
          fun a ha => by
            obtain rfl := Option.mem_some_iff.mp ha
            exact ⟨hp _ (by simp), fun b hb => (hothers b hb).2⟩
        obtain ⟨left, hleft, hsorted'⟩ := ih ancestor
          (fun a ha => hp a (hpart (lessBy cmp · pivot) a ha))
          fun a ha => ⟨(hancestor a ha).1, fun b hb => (hancestor a ha).2 b (hpart _ b hb)⟩
        refine ⟨left ++ right, ?_, isStableSort_around htrans hp hsorted' hsorted⟩
        rw [hright, hleft]
        rfl

end Sorted

end Quicksort

variable {β γ : Type}

/-! ## Steps that can stop -/

/-- What a step gives is as asked, and it does not stop if something holds. -/
def Delivers (step : Option β) (safe : Prop) (q : β → Prop) : Prop :=
  match step with
  | some b => q b
  | none => ¬safe

section Delivers

variable {safe : Prop} {q : β → Prop} {r : γ → Prop} {step : Option β}

/-- A step after another one. -/
theorem Delivers.bind {next : β → Option γ} (h : Delivers step safe q)
    (hnext : ∀ b, q b → Delivers (next b) safe r) : Delivers (step.bind next) safe r := by
  cases step with
  | none => exact h
  | some b => exact hnext b h

/-- What is made of what a step gives. -/
theorem Delivers.map {f : β → γ} (h : Delivers step safe q) (hf : ∀ b, q b → r (f b)) :
    Delivers (step.map f) safe r := by
  cases step with
  | none => exact h
  | some b => exact hf b h

end Delivers

/-! ## Stretches of a list -/

section Stretches

variable (cmp) (whole : List α)

/-- The comparison is transitive on the members of the whole list. -/
def IsOrdered : Prop := IsTransOn cmp (· ∈ whole)

/-- A list has the members of a stretch of the whole list, and is its stable sort if the comparison
is transitive. -/
structure Sorts (stretch out : List α) : Prop where
  within : ∀ a ∈ stretch, a ∈ whole
  perm : out.Perm stretch
  stable : IsOrdered cmp whole → IsStableSort cmp stretch out

/-- A way to sort any stretch of the whole list. -/
def IsSort (sort? : List α → Option (List α)) : Prop :=
  ∀ stretch, (∀ a ∈ stretch, a ∈ whole) →
    Delivers (sort? stretch) (IsOrdered cmp whole) (Sorts cmp whole stretch)

/-- A run was made of a stretch. -/
def Run.IsOf (stretch : List α) (run : Run α) : Prop :=
  if run.isSorted then Sorts cmp whole stretch run.items
  else run.items = stretch ∧ ∀ a ∈ stretch, a ∈ whole

end Stretches

variable {whole : List α}

/-- The members of a run are members of the list. -/
theorem Run.IsOf.within {stretch : List α} {run : Run α} (h : run.IsOf cmp whole stretch) :
    ∀ a ∈ stretch, a ∈ whole := by
  unfold Run.IsOf at h
  split at h
  · exact h.within
  · exact h.2

/-- A way to sort that keeps the members, and that is a stable sort where the comparison is
transitive. -/
theorem isSort_of {sort? : List α → Option (List α)}
    (hperm : ∀ list out, sort? list = some out → out.Perm list)
    (hstable : IsOrdered cmp whole → ∀ list, (∀ a ∈ list, a ∈ whole) →
      ∃ out, sort? list = some out ∧ IsStableSort cmp list out) : IsSort cmp whole sort? := by
  intro stretch hstretch
  cases hout : sort? stretch with
  | none =>
    intro hordered
    obtain ⟨out, hsome, -⟩ := hstable hordered stretch hstretch
    rw [hout] at hsome
    cases hsome
  | some out =>
    refine ⟨hstretch, hperm _ _ hout, fun hordered => ?_⟩
    obtain ⟨out', hsome, hsorted⟩ := hstable hordered stretch hstretch
    rw [hout] at hsome
    obtain rfl := Option.some.inj hsome
    exact hsorted

/-- What a way to sort gives has the members of what it is given. -/
theorem IsSort.perm {sort? : List α → Option (List α)} {list out : List α}
    (h : IsSort cmp list sort?) (hout : sort? list = some out) : out.Perm list := by
  have hsorts := h list fun _ ha => ha
  rw [hout] at hsorts
  exact hsorts.perm

/-- Where the comparison is transitive, a way to sort gives the stable sort. -/
theorem IsSort.exists_isStableSort {sort? : List α → Option (List α)} {list : List α}
    (h : IsSort cmp whole sort?) (hordered : IsOrdered cmp whole) (hlist : ∀ a ∈ list, a ∈ whole) :
    ∃ out, sort? list = some out ∧ IsStableSort cmp list out := by
  have hsorts := h list hlist
  cases hout : sort? list with
  | none =>
    rw [hout] at hsorts
    exact absurd hordered hsorts
  | some out =>
    rw [hout] at hsorts
    exact ⟨out, rfl, hsorts.stable hordered⟩

variable [OrientedCmp cmp]

/-- Sorting short lists is a sort. -/
theorem isSort_sortShort? : IsSort cmp whole (sortShort? (lessBy cmp)) :=
  isSort_of (fun _ _ => sortShort?_perm) fun hordered _ hlist => exists_sortShort? hordered hlist

/-! ## Finding runs -/

/-- Members that go on as the first two do are related pairwise, by a relation that the step to the
next one gives and that is transitive on them. -/
theorem pairwise_countOn {r : α → α → Prop} {p : α → Prop} {descends : Bool}
    (hstep : ∀ a b, less b a = descends → r a b)
    (htrans : ∀ a b c, p a → p b → p c → r a b → r b c → r a c) {a : α} {rest : List α}
    (hp : ∀ b ∈ a :: rest, p b) :
    ((a :: rest).take (countOn less descends a rest + 1)).Pairwise r := by
  induction rest generalizing a with
  | nil => simp [countOn]
  | cons b rest ih =>
    have hpa := hp a List.mem_cons_self
    have hprest : ∀ c ∈ b :: rest, p c := fun c hc => hp c (List.mem_cons_of_mem a hc)
    rw [countOn]
    split
    · rename_i hab
      have hrest := ih hprest
      rw [List.take_succ_cons]
      refine List.pairwise_cons.mpr ⟨fun c hc => ?_, hrest⟩
      rw [List.take_succ_cons] at hc hrest
      rcases List.mem_cons.mp hc with rfl | hc
      · exact hstep a c hab
      · exact htrans a b c hpa (hprest b List.mem_cons_self)
          (hprest c (List.mem_cons_of_mem b (List.mem_of_mem_take hc))) (hstep a b hab)
          (List.rel_of_pairwise_cons hrest hc)
    · simp

/-- A stretch is no longer than the list. -/
theorem countOn_le (less : α → α → Bool) (descends : Bool) (a : α) (rest : List α) :
    countOn less descends a rest ≤ rest.length := by
  induction rest generalizing a with
  | nil => exact Nat.le_refl 0
  | cons b rest ih =>
    rw [countOn]
    split
    · exact Nat.succ_le_succ (ih b)
    · exact Nat.zero_le _

/-- A list in strictly descending order is turned round by a stable sort: it has no ties. -/
theorem isStableSort_reverse {list : List α} (h : list.Pairwise fun a b => cmp b a = .lt) :
    IsStableSort cmp list list.reverse := by
  refine ⟨List.reverse_perm list, List.pairwise_reverse.mpr (h.imp fun hba => by rw [hba]; rfl),
    fun a ha => ?_⟩
  obtain ⟨front, back, rfl⟩ := List.append_of_mem ha
  obtain ⟨-, hback, hfront⟩ := List.pairwise_append.mp h
  have hnone : (front.filter fun b => cmp a b == .eq) = [] := by
    refine List.filter_eq_nil_iff.mpr fun b hb htie => ?_
    have hab := hfront b hb a List.mem_cons_self
    rw [beq_iff_eq.mp htie] at hab
    cases hab
  have hnone' : (back.filter fun b => cmp a b == .eq) = [] := by
    refine List.filter_eq_nil_iff.mpr fun b hb htie => ?_
    have hba := List.rel_of_pairwise_cons hback hb
    rw [OrientedCmp.eq_symm (beq_iff_eq.mp htie)] at hba
    cases hba
  have htie : cmp a a = .eq := ReflCmp.compare_self
  have hself : ((a :: back).filter fun b => cmp a b == .eq) = [a] := by
    rw [List.filter_cons_of_pos (by rw [htie]; rfl), hnone']
  rw [List.filter_reverse, List.filter_append, hnone, hself]
  rfl

/-- The run at the start of a list sorts as many members as it has. -/
theorem sorts_firstRun {list : List α} (hlist : ∀ a ∈ list, a ∈ whole) :
    Sorts cmp whole (list.take (firstRun (lessBy cmp) list).length)
      (firstRun (lessBy cmp) list) := by
  have hwithin : ∀ n, ∀ a ∈ list.take n, a ∈ whole :=
    fun n a ha => hlist a (List.mem_of_mem_take ha)
  unfold firstRun
  split
  · rename_i a b rest
    dsimp only
    have hlength := countOn_le (lessBy cmp) (lessBy cmp b a) a (b :: rest)
    split
    · rename_i hdescends
      rw [hdescends] at hlength ⊢
      rw [List.length_reverse, List.length_take_of_le (Nat.succ_le_succ hlength)]
      refine ⟨hwithin _, List.reverse_perm _, fun hordered => isStableSort_reverse ?_⟩
      refine pairwise_countOn (p := (· ∈ whole)) (fun a b hab => beq_iff_eq.mp hab) ?_ hlist
      intro a b c ha hb hc hba hcb
      exact hordered.lt_of_lt_of_isLE hc hb ha hcb (by rw [hba]; rfl)
    · rename_i hascends
      rw [Bool.eq_false_iff.mpr hascends] at hlength ⊢
      rw [List.length_take_of_le (Nat.succ_le_succ hlength)]
      refine ⟨hwithin _, .refl _, fun hordered => .refl ?_⟩
      refine pairwise_countOn (p := (· ∈ whole)) (fun a b hab => ?_)
        (fun _ _ _ ha hb hc hab hbc => hordered ha hb hc hab hbc) hlist
      rw [← not_lessBy, hab]
      rfl
  · rename_i hshort
    rw [List.take_length]
    refine ⟨hlist, .refl _, fun _ => .refl ?_⟩
    match list, hshort with
    | [], _ => exact .nil
    | [a], _ => exact List.pairwise_singleton _ a
    | a :: b :: rest, hshort => exact absurd rfl (hshort a b rest)

/-- The next run was made of the members at the start of a list, of one at least. -/
theorem nextRun?_delivers {enough : Nat} (henough : 0 < enough) (atOnce : Bool) {list : List α}
    (hne : list ≠ []) (hlist : ∀ a ∈ list, a ∈ whole) :
    Delivers (nextRun? (lessBy cmp) enough atOnce list) (IsOrdered cmp whole) fun run =>
      run.IsOf cmp whole (list.take run.items.length) ∧ 0 < run.items.length := by
  have hpos : 0 < list.length := List.length_pos_of_ne_nil hne
  have htake : ∀ n, ∀ a ∈ list.take n, a ∈ whole :=
    fun n a ha => hlist a (List.mem_of_mem_take ha)
  unfold nextRun?
  dsimp only
  split
  · rename_i hlong
    exact ⟨sorts_firstRun hlist, Nat.lt_of_lt_of_le henough hlong⟩
  split
  · refine (isSort_sortShort? _ (htake shortLength)).map fun items hitems => ?_
    have hlength := hitems.perm.length_eq
    rw [List.length_take] at hlength
    refine ⟨?_, ?_⟩
    · show Sorts cmp whole (list.take items.length) items
      rw [hlength, ← List.take_eq_take_min]
      exact hitems
    · show 0 < items.length
      rw [hlength]
      exact Nat.lt_min.mpr ⟨Nat.zero_lt_succ 31, hpos⟩
  · refine ⟨⟨?_, ?_⟩, ?_⟩
    · show list.take enough = list.take (list.take enough).length
      rw [List.length_take, ← List.take_eq_take_min]
    · exact htake _
    · show 0 < (list.take enough).length
      rw [List.length_take]
      exact Nat.lt_min.mpr ⟨henough, hpos⟩

/-- The runs of a list, each with its stretch. -/
def AreRuns (cmp : α → α → Ordering) (whole list : List α) (runs : List (Run α)) : Prop :=
  ∃ stretches, List.Forall₂ (Run.IsOf cmp whole) stretches runs ∧ stretches.flatten = list

/-- The runs of a list follow each other in it, unless the comparison has no order. -/
theorem runs?_delivers {enough : Nat} (henough : 0 < enough) (atOnce : Bool) {count : Nat}
    {list : List α} (hcount : list.length ≤ count) (hlist : ∀ a ∈ list, a ∈ whole) :
    Delivers (runs? (lessBy cmp) enough atOnce count list) (IsOrdered cmp whole)
      (AreRuns cmp whole list) := by
  induction count generalizing list with
  | zero =>
    obtain rfl := List.length_eq_zero_iff.mp (Nat.le_zero.mp hcount)
    exact ⟨[], .nil, rfl⟩
  | succ count ih =>
    cases list with
    | nil => exact ⟨[], .nil, rfl⟩
    | cons a rest =>
      rw [runs?]
      refine (nextRun?_delivers henough atOnce (List.cons_ne_nil a rest) hlist).bind
        fun run ⟨hrun, hpos⟩ => ?_
      have hdrop : ((a :: rest).drop run.items.length).length ≤ count := by
        rw [List.length_drop]
        omega
      refine (ih hdrop fun b hb => hlist b (List.mem_of_mem_drop hb)).map
        fun runs ⟨stretches, hruns, hflatten⟩ => ?_
      refine ⟨(a :: rest).take run.items.length :: stretches, .cons hrun hruns, ?_⟩
      rw [List.flatten_cons, hflatten, List.take_append_drop]

/-! ## Joining runs -/

variable {finish : List α → Option (List α)}

omit [OrientedCmp cmp] in
/-- A run becomes a sorted stretch, unless the comparison has no order. -/
theorem Run.IsOf.sort? {stretch : List α} {run : Run α} (h : run.IsOf cmp whole stretch)
    (hfinish : IsSort cmp whole finish) :
    Delivers (run.sort? finish) (IsOrdered cmp whole) (Sorts cmp whole stretch) := by
  unfold Run.IsOf at h
  unfold Run.sort?
  split
  · rename_i hsorted
    rw [if_pos hsorted] at h
    exact h
  · rename_i hsorted
    rw [if_neg hsorted] at h
    rw [h.1]
    exact hfinish stretch h.2

/-- Two runs that are joined are made of their stretches, one behind the other. -/
theorem joinRuns?_delivers (hfinish : IsSort cmp whole finish) (room : Nat) {s t : List α}
    {left right : Run α} (hleft : left.IsOf cmp whole s) (hright : right.IsOf cmp whole t) :
    Delivers (joinRuns? (lessBy cmp) finish room left right) (IsOrdered cmp whole)
      (Run.IsOf cmp whole (s ++ t)) := by
  have hwithin : ∀ a ∈ s ++ t, a ∈ whole :=
    fun a ha => (List.mem_append.mp ha).elim (hleft.within a) (hright.within a)
  unfold joinRuns?
  split
  · refine (hleft.sort? hfinish).bind fun l hl => (hright.sort? hfinish).map fun r hr => ?_
    show Sorts cmp whole (s ++ t) (merge (lessBy cmp) l r)
    exact ⟨hwithin, (merge_perm _ l r).trans (hl.perm.append hr.perm),
      fun hordered => isStableSort_merge hordered hwithin (hl.stable hordered) (hr.stable hordered)⟩
  · rename_i huntouched
    simp only [Bool.or_eq_true, not_or, Bool.not_eq_true] at huntouched
    unfold Run.IsOf at hleft hright
    rw [if_neg (by simp [huntouched.1.1])] at hleft
    rw [if_neg (by simp [huntouched.1.2])] at hright
    exact ⟨by rw [hleft.1, hright.1], hwithin⟩

/-- The runs on a stack are made of the stretches of a list, the one on top of the last. -/
inductive StackOf (cmp : α → α → Ordering) (whole : List α) :
    List (Run α × Nat) → List α → Prop where
  | nil : StackOf cmp whole [] []
  | cons {stack : List (Run α × Nat)} {s t : List α} {run : Run α} (depth : Nat)
      (hrun : run.IsOf cmp whole t) (hstack : StackOf cmp whole stack s) :
      StackOf cmp whole ((run, depth) :: stack) (s ++ t)

/-- A stack and a run behind it are made of a list. -/
def Waits (cmp : α → α → Ordering) (whole list : List α) (stack : List (Run α × Nat))
    (last : Run α) : Prop :=
  ∃ s t, StackOf cmp whole stack s ∧ last.IsOf cmp whole t ∧ s ++ t = list

/-- Joining runs on top of a stack leaves open what the stack and the last run are made of; at depth 0
all runs are joined. -/
theorem joinDeeper?_delivers (hfinish : IsSort cmp whole finish) (room depth : Nat)
    {stack : List (Run α × Nat)} {s t : List α} {run : Run α}
    (hstack : StackOf cmp whole stack s) (hrun : run.IsOf cmp whole t) :
    Delivers (joinDeeper? (lessBy cmp) finish room depth stack run) (IsOrdered cmp whole)
      fun out => Waits cmp whole (s ++ t) out.1 out.2 ∧ (depth = 0 → out.1 = []) := by
  induction hstack generalizing run t with
  | nil => exact ⟨⟨[], t, .nil, hrun, rfl⟩, fun _ => rfl⟩
  | @cons stack s u left own hleft hstack ih =>
    rw [joinDeeper?]
    split
    · rw [List.append_assoc]
      exact (joinRuns?_delivers hfinish room hleft hrun).bind fun joined hjoined => ih hjoined
    · rename_i hdepth
      refine ⟨⟨s ++ u, t, .cons own hleft hstack, hrun, rfl⟩, fun hzero => ?_⟩
      subst hzero
      exact absurd (Nat.zero_le own) hdepth

/-- What waits to be joined is made of what was passed. -/
theorem Joining.push?_delivers (hfinish : IsSort cmp whole finish) (room scale : Nat)
    {list t : List α} {j : Joining α} {next : Run α} (hj : Waits cmp whole list j.stack j.last)
    (hnext : next.IsOf cmp whole t) :
    Delivers (j.push? (lessBy cmp) finish room scale next) (IsOrdered cmp whole)
      fun j' => Waits cmp whole (list ++ t) j'.stack j'.last := by
  obtain ⟨s, u, hstack, hlast, rfl⟩ := hj
  refine (joinDeeper?_delivers hfinish room _ hstack hlast).map
    fun out ⟨⟨s', u', hstack', hrun, heq⟩, _⟩ => ?_
  exact ⟨s' ++ u', t, .cons _ hrun hstack', hnext, by rw [heq]⟩

/-- Pushing runs one by one keeps the waiting ones in the order of the list. -/
theorem foldlM_push?_delivers (hfinish : IsSort cmp whole finish) (room scale : Nat)
    {list : List α} {j : Joining α} {stretches : List (List α)} {runs : List (Run α)}
    (hj : Waits cmp whole list j.stack j.last)
    (hruns : List.Forall₂ (Run.IsOf cmp whole) stretches runs) :
    Delivers (runs.foldlM (Joining.push? (lessBy cmp) finish room scale) j) (IsOrdered cmp whole)
      fun j' => Waits cmp whole (list ++ stretches.flatten) j'.stack j'.last := by
  induction hruns generalizing list j with
  | nil =>
    rw [List.flatten_nil, List.append_nil]
    exact hj
  | cons hrun hruns ih =>
    rw [List.foldlM_cons, List.flatten_cons, ← List.append_assoc]
    exact (Joining.push?_delivers hfinish room scale hj hrun).bind fun j' hj' => ih hj'

/-- All runs of a list are joined to what sorts it. -/
theorem joinAll?_delivers (hfinish : IsSort cmp whole finish) (room scale : Nat) {list : List α}
    {runs : List (Run α)} (h : AreRuns cmp whole list runs) :
    Delivers (joinAll? (lessBy cmp) finish room scale runs) (IsOrdered cmp whole)
      (Sorts cmp whole list) := by
  obtain ⟨stretches, hruns, rfl⟩ := h
  cases hruns with
  | nil => exact ⟨nofun, .refl _, fun _ => .nil⟩
  | @cons stretch first stretches rest hfirst hrest =>
    rw [joinAll?, List.flatten_cons]
    have hstart : Waits cmp whole stretch [] first := ⟨[], stretch, .nil, hfirst, rfl⟩
    refine (foldlM_push?_delivers hfinish room scale hstart hrest).bind fun j hj => ?_
    obtain ⟨s, t, hstack, hlast, heq⟩ := hj
    refine (joinDeeper?_delivers hfinish room 0 hstack hlast).bind
      fun out ⟨⟨s', t', hstack', hrun, heq'⟩, hempty⟩ => ?_
    rw [hempty rfl] at hstack'
    cases hstack'
    rw [List.nil_append] at heq'
    subst heq'
    rw [← heq]
    exact hrun.sort? hfinish

/-! ## Sorting a list -/

/-- Of a list with members at least one is enough. -/
theorem enoughFor_pos {size : Nat} (h : 0 < size) : 0 < enoughFor size := by
  unfold enoughFor
  split
  · omega
  · have hroot : 2 ≤ 1 <<< ((1 + size.log2) / 2) := by
      have hlog : 1 ≤ size.log2 := (Nat.le_log2 (by omega)).mpr (by omega)
      rw [Nat.one_shiftLeft]
      exact Nat.le_self_pow (by omega) 2
    dsimp only
    generalize 1 <<< ((1 + size.log2) / 2) = root at hroot ⊢
    exact Nat.div_pos (Nat.le_add_right_of_le hroot) Nat.zero_lt_two

/-- Sorting by runs is a way to sort, if what finishes the runs is. -/
theorem isSort_sortRuns? (hfinish : IsSort cmp whole finish) (atOnce : Bool) :
    IsSort cmp whole (sortRuns? (lessBy cmp) finish atOnce) := by
  intro stretch hstretch
  cases stretch with
  | nil => exact ⟨nofun, .refl _, fun _ => .nil⟩
  | cons a rest =>
    have hpos := enoughFor_pos (List.length_pos_of_ne_nil (List.cons_ne_nil a rest))
    exact (runs?_delivers hpos atOnce (Nat.le_refl _) hstretch).bind
      fun runs hruns => joinAll?_delivers hfinish _ _ hruns

/-- The quicksort is a sort. -/
theorem isSort_quicksortAll? (cmp : α → α → Ordering) [OrientedCmp cmp] (whole : List α) :
    IsSort cmp whole (quicksortAll? (lessBy cmp)) := by
  have hgive : ∀ whole, IsSort cmp whole (sortRuns? (lessBy cmp) (sortShort? (lessBy cmp)) true) :=
    fun _ => isSort_sortRuns? isSort_sortShort? true
  refine isSort_of (fun list out hout => ?_) fun hordered list hlist => ?_
  · exact quicksort?_perm (fun list out => (hgive list).perm) hout
  · exact exists_quicksort? hordered (fun _ => (hgive whole).exists_isStableSort hordered) _ none
      hlist nofun

/-- The stable sort is a way to sort. -/
theorem isSort_stableSort? (cmp : α → α → Ordering) [OrientedCmp cmp] (whole : List α) :
    IsSort cmp whole (stableSort? cmp) := by
  intro stretch hstretch
  unfold stableSort?
  dsimp only
  split
  · exact ⟨hstretch, insertionSort_perm _ stretch,
      fun hordered => isStableSort_insertionSort hordered hstretch⟩
  · exact isSort_sortRuns? (isSort_quicksortAll? cmp whole) _ stretch hstretch

/-- Sorting keeps the members of a list, for whatever comparison. -/
theorem stableSort?_perm {list out : List α} (h : stableSort? cmp list = some out) :
    out.Perm list := (isSort_stableSort? cmp list).perm h

/-- A comparison that is transitive on the members of a list does not stop the sort, which is the
stable one then. -/
theorem exists_stableSort? {list : List α} (htrans : IsTransOn cmp (· ∈ list)) :
    ∃ out, stableSort? cmp list = some out ∧ IsStableSort cmp list out :=
  (isSort_stableSort? cmp list).exists_isStableSort htrans fun _ ha => ha

omit [OrientedCmp cmp] in
/-- A sort that stops has been given more than twenty members. -/
theorem length_of_stableSort?_eq_none {list : List α} (h : stableSort? cmp list = none) :
    20 < list.length := by
  refine Nat.lt_of_not_le fun hle => ?_
  unfold stableSort? at h
  rw [if_pos hle] at h
  cases h

end RdfStore.Sorting
