import RdfStore.Term.Basic

/-!
# Sorted triples

The order of terms is one of keys that together determine the term, so it is a linear order,
and so is the order of triples. The triples of a list in order, each once, are strictly sorted,
and they are the triples of the list.
-/

set_option autoImplicit false

namespace RdfStore

open Std

/-- The order of terms goes by keys. -/
instance : TransCmp Term.order := by
  unfold Term.order
  infer_instance

/-- Literals with the same keys are equal. -/
theorem Literal.eq_of_keys {l m : Literal} (hvalue : l.value = m.value)
    (hrank : (Term.literal l).literalRank = (Term.literal m).literalRank)
    (htext : (Term.literal l).literalText = (Term.literal m).literalText) : l = m := by
  obtain ⟨value, kind⟩ := l
  obtain ⟨value', kind'⟩ := m
  cases hvalue
  cases kind with
  | plain =>
    cases kind' with
    | plain => rfl
    | tagged | typed => cases hrank
  | tagged language =>
    cases kind' with
    | tagged language' =>
      cases htext
      rfl
    | plain | typed => cases hrank
  | typed datatype =>
    cases kind' with
    | typed datatype' =>
      cases datatype
      cases datatype'
      cases htext
      rfl
    | plain | tagged => cases hrank

/-- Only equal terms have the same keys. -/
theorem Term.eq_of_order_eq {a b : Term} (h : Term.order a b = .eq) : a = b := by
  unfold Term.order at h
  rw [compareLex_eq_eq, compareLex_eq_eq, compareLex_eq_eq] at h
  obtain ⟨hrank, htext, hliteralRank, hliteralText⟩ := h
  have hrank : a.rank = b.rank := LawfulEqCmp.eq_of_compare hrank
  have htext : a.sortText = b.sortText := LawfulEqCmp.eq_of_compare htext
  have hliteralRank : a.literalRank = b.literalRank := LawfulEqCmp.eq_of_compare hliteralRank
  have hliteralText : a.literalText = b.literalText := LawfulEqCmp.eq_of_compare hliteralText
  cases a with
  | iri i =>
    cases b with
    | iri j => exact congrArg (fun text => Term.iri ⟨text⟩) htext
    | blank | literal => cases hrank
  | blank i =>
    cases b with
    | blank j => exact congrArg (fun label => Term.blank ⟨label⟩) htext
    | iri | literal => cases hrank
  | literal l =>
    cases b with
    | literal m => exact congrArg Term.literal (Literal.eq_of_keys htext hliteralRank hliteralText)
    | iri | blank => cases hrank

/-- Comparing the images under a function is transitive where comparing them is. -/
theorem transCmp_on {α β : Type} (f : α → β) (cmp : β → β → Ordering) [TransCmp cmp] :
    TransCmp fun a b => cmp (f a) (f b) where
  eq_swap := OrientedCmp.eq_swap
  isLE_trans := TransCmp.isLE_trans

/-- The order of triples goes by keys. -/
instance : TransCmp Triple.order := by
  have hsubject := transCmp_on (fun t : Triple => t.subject.toTerm) Term.order
  have hobject := transCmp_on (fun t : Triple => t.object) Term.order
  unfold Triple.order
  infer_instance

/-- Only equal triples compare as equal. -/
theorem Triple.eq_of_order_eq {t u : Triple} (h : Triple.order t u = .eq) : t = u := by
  unfold Triple.order at h
  rw [compareLex_eq_eq, compareLex_eq_eq] at h
  obtain ⟨hsubject, hpredicate, hobject⟩ := h
  have hsubject : t.subject.toTerm = u.subject.toTerm := Term.eq_of_order_eq hsubject
  have hpredicate : t.predicate.text = u.predicate.text := LawfulEqCmp.eq_of_compare hpredicate
  have hobject : t.object = u.object := Term.eq_of_order_eq hobject
  obtain ⟨s, ⟨p⟩, o⟩ := t
  obtain ⟨s', ⟨p'⟩, o'⟩ := u
  cases hpredicate
  cases hobject
  cases s <;> cases s' <;> cases hsubject <;> rfl

/-- Triples that come after another go on with its subject or with a later one. -/
theorem Triple.subject_isLE {t u : Triple} (h : (Triple.order t u).isLE) :
    (Term.order t.subject.toTerm u.subject.toTerm).isLE := by
  unfold Triple.order compareLex at h
  rcases Ordering.isLE_then_iff_or.mp h with hlt | ⟨heq, -⟩
  · exact Ordering.isLE_of_eq_lt hlt
  · exact Ordering.isLE_of_eq_eq heq

/-- A triple between two with the same subject has it too. -/
theorem Triple.subject_eq_of_between {t u v : Triple} (htu : (Triple.order t u).isLE)
    (huv : (Triple.order u v).isLE) (h : v.subject = t.subject) : u.subject = t.subject := by
  have hfirst := Triple.subject_isLE htu
  have hsecond := Triple.subject_isLE huv
  rw [h] at hsecond
  have hterm := Term.eq_of_order_eq (OrientedCmp.isLE_antisymm hsecond hfirst)
  cases ht : t.subject <;> cases hu : u.subject <;> rw [ht, hu] at hterm <;> cases hterm <;> rfl

/-- Triples that come one before the other both ways are equal. -/
theorem Triple.eq_of_isLE {t u : Triple} (htu : (Triple.order t u).isLE)
    (hut : (Triple.order u t).isLE) : t = u :=
  Triple.eq_of_order_eq (OrientedCmp.isLE_antisymm htu hut)

/-- The first of sorted triples comes before all of them. -/
theorem Triple.isLE_of_pairwise {t u : Triple} {rest : List Triple}
    (h : (t :: rest).Pairwise fun a b => Triple.order a b = .lt) (hu : u ∈ t :: rest) :
    (Triple.order t u).isLE := by
  rcases List.mem_cons.mp hu with rfl | hrest
  · exact ReflCmp.isLE_rfl
  · exact Ordering.isLE_of_eq_lt ((List.pairwise_cons.mp h).1 u hrest)

/-! ## Sorting -/

/-- Dropping repetitions keeps every triple. -/
theorem mem_dropRepeats {t : Triple} {ts : List Triple} : t ∈ dropRepeats ts ↔ t ∈ ts := by
  fun_induction dropRepeats ts with
  | case1 => exact Iff.rfl
  | case2 => exact Iff.rfl
  | case3 u rest ih =>
    rw [ih, List.mem_cons, List.mem_cons, List.mem_cons]
    exact ⟨Or.inr, fun h => h.elim Or.inl id⟩
  | case4 v u rest _ ih => rw [List.mem_cons, ih, ← List.mem_cons]

/-- A sorted list without repetitions is strictly sorted. -/
theorem pairwise_dropRepeats {ts : List Triple}
    (h : ts.Pairwise fun t u => (Triple.order t u).isLE) :
    (dropRepeats ts).Pairwise fun t u => Triple.order t u = .lt := by
  fun_induction dropRepeats ts with
  | case1 => exact List.Pairwise.nil
  | case2 t => exact List.pairwise_singleton _ t
  | case3 u rest ih => exact ih (List.pairwise_cons.mp h).2
  | case4 t u rest hne ih =>
    obtain ⟨hfirst, hrest⟩ := List.pairwise_cons.mp h
    refine List.pairwise_cons.mpr ⟨fun v hv => ?_, ih hrest⟩
    have hlt : Triple.order t u = .lt := by
      have hle := hfirst u List.mem_cons_self
      cases hcompare : Triple.order t u with
      | lt => rfl
      | eq => exact absurd (Triple.eq_of_order_eq hcompare) hne
      | gt => rw [hcompare] at hle; cases hle
    rcases List.mem_cons.mp (mem_dropRepeats.mp hv) with rfl | hv
    · exact hlt
    · exact TransCmp.lt_of_lt_of_isLE hlt ((List.pairwise_cons.mp hrest).1 v hv)

/-- The sorted triples are those of the list. -/
theorem mem_sortedDistinct {t : Triple} {ts : List Triple} : t ∈ sortedDistinct ts ↔ t ∈ ts := by
  unfold sortedDistinct
  rw [mem_dropRepeats, (List.mergeSort_perm ts _).mem_iff]

/-- The sorted triples are strictly sorted. -/
theorem pairwise_sortedDistinct (ts : List Triple) :
    (sortedDistinct ts).Pairwise fun t u => Triple.order t u = .lt := by
  refine pairwise_dropRepeats (List.pairwise_mergeSort ?_ ?_ ts)
  · exact fun _ _ _ hab hbc => TransCmp.isLE_trans hab hbc
  · intro a b
    have hswap : Triple.order b a = (Triple.order a b).swap := OrientedCmp.eq_swap
    rw [hswap]
    cases Triple.order a b <;> rfl

/-- No triple stands twice among the sorted triples. -/
theorem nodup_sortedDistinct (ts : List Triple) : (sortedDistinct ts).Nodup := by
  refine (pairwise_sortedDistinct ts).imp ?_
  rintro t u hlt rfl
  have hself : Triple.order t t = .eq := ReflCmp.compare_self
  rw [hself] at hlt
  cases hlt

end RdfStore
