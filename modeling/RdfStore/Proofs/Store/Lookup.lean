import Mathlib.Data.List.Nodup
import RdfStore.Proofs.Store.Coherence

/-!
# Lookups

The keys that a lookup reads are those of the stored triples that agree with every given
term, in ascending order. An index range finds them because agreeing in terms is agreeing in
numbers; terms without a number agree with nothing that is stored. The lists of all triples
and of the terms at one position follow.
-/

set_option autoImplicit false

namespace RdfStore

/-- The terms of a triple form that triple again. -/
theorem Triple.ofTerms?_toTerm (t : Triple) :
    Triple.ofTerms? t.subject.toTerm (.iri t.predicate) t.object = some t := by
  obtain ⟨s, p, o⟩ := t
  cases s <;> rfl

namespace Store

/-- Whether three terms agree with every given one. -/
def TermTriple.Agrees (subject predicate object : Option Term) (m : TermTriple) : Prop :=
  (∀ x, subject = some x → x = m.subject) ∧ (∀ x, predicate = some x → x = m.predicate) ∧
    ∀ x, object = some x → x = m.object

/-- The keys that a lookup reads. -/
def selectedKeys (s : Store) (subject predicate object : Option Term) : List Key :=
  match s.resolve? subject, s.resolve? predicate, s.resolve? object with
  | some sub, some pred, some obj =>
    let (order, start) := IndexOrder.select sub pred obj
    (s.index order).withStart start s.dictionary.size
  | _, _, _ => []

/-- The index that a lookup with these given terms reads. -/
def selectedOrder (subject predicate object : Option Term) : IndexOrder :=
  .forBound subject.isSome predicate.isSome object.isSome

variable {s : Store}

/-! ## Terms and numbers -/

/-- What was resolved is given exactly when the term was. -/
theorem isSome_of_resolve? {wanted : Option Term} {n : Option Nat}
    (h : s.resolve? wanted = some n) : n.isSome = wanted.isSome := by
  cases wanted with
  | none => cases h; rfl
  | some x =>
    obtain ⟨id, -, rfl⟩ := Option.map_eq_some_iff.mp h
    rfl

/-- A term agrees with a given one when its number does. -/
theorem agrees_resolve? (hs : s.IsCoherent) {wanted : Option Term} {n : Option Nat} {x : Term}
    {id : Nat} (h : s.resolve? wanted = some n) (hx : s.dictionary.id? x = some id) :
    IndexOrder.Agrees n id ↔ ∀ y, wanted = some y → y = x := by
  cases wanted with
  | none =>
    cases h
    simp only [IndexOrder.agrees_none, reduceCtorEq, false_imp_iff, implies_true]
  | some y =>
    obtain ⟨m, hm, rfl⟩ := Option.map_eq_some_iff.mp h
    rw [IndexOrder.agrees_some]
    constructor
    · rintro rfl z hz
      cases hz
      exact Dictionary.eq_of_id? hs.dictionary hm hx
    · intro hyx
      rw [hyx y rfl, hx] at hm
      exact (Option.some.inj hm).symm

/-- A given term without a number agrees with no term that has one. -/
theorem not_agrees_of_resolve?_eq_none {wanted : Option Term} {x : Term} {id : Nat}
    (h : s.resolve? wanted = none) (hx : s.dictionary.id? x = some id) :
    ¬∀ y, wanted = some y → y = x := by
  intro hall
  cases wanted with
  | none => cases h
  | some y =>
    obtain rfl := hall y rfl
    have hnone : s.dictionary.id? y = none := Option.map_eq_none_iff.mp h
    rw [hx] at hnone
    cases hnone

/-- The terms behind the numbers of a triple are its terms. -/
theorem termsOf?_of_numbers (hs : s.IsCoherent) {t : Triple} {k : Key}
    (h : s.dictionary.Numbers t k) : s.termsOf? k = some (.ofTriple t) := by
  unfold termsOf?
  rw [(hs.dictionary _ _).mp h.subject, (hs.dictionary _ _).mp h.predicate,
    (hs.dictionary _ _).mp h.object]
  rfl

/-- Different numbers have different terms behind them. -/
theorem termsOf?_injective (hs : s.IsCoherent) {k l : Key} {m : TermTriple}
    (hk : s.termsOf? k = some m) (hl : s.termsOf? l = some m) : k = l := by
  have hterms : ∀ {k : Key}, s.termsOf? k = some m → s.dictionary.id? m.subject = some k.1 ∧
      s.dictionary.id? m.predicate = some k.2.1 ∧ s.dictionary.id? m.object = some k.2.2 := by
    intro k h
    unfold termsOf? at h
    split at h
    · rename_i sub pred obj hsub hpred hobj
      cases h
      exact ⟨(hs.dictionary _ _).mpr hsub, (hs.dictionary _ _).mpr hpred,
        (hs.dictionary _ _).mpr hobj⟩
    · cases h
  obtain ⟨hk1, hk2, hk3⟩ := hterms hk
  obtain ⟨hl1, hl2, hl3⟩ := hterms hl
  rw [hk1] at hl1
  rw [hk2] at hl2
  rw [hk3] at hl3
  exact Prod.ext (Option.some.inj hl1) (Prod.ext (Option.some.inj hl2) (Option.some.inj hl3))

/-! ## The keys of a lookup -/

/-- Every key of an index is the rotated key of a stored triple. -/
theorem exists_of_mem_index (hs : s.IsCoherent) {order : IndexOrder} {k : Key}
    (hk : k ∈ s.index order) :
    ∃ t, s.contains t = true ∧ s.dictionary.Numbers t (order.triple k) := by
  obtain ⟨t, ht, hc⟩ := hs.contains_of_mem ((hs.mem_index order k).mp hk)
  exact ⟨t, hc, ht⟩

/-- No number of a key is above the number of terms. -/
theorem isWithin_of_mem_index (hs : s.IsCoherent) {order : IndexOrder} {k : Key}
    (hk : k ∈ s.index order) : k.IsWithin s.dictionary.size := by
  obtain ⟨t, -, ht⟩ := exists_of_mem_index hs hk
  obtain ⟨h1, h2, h3⟩ := ht.isWithin hs.dictionary
  cases order with
  | spo => exact ⟨h1, h2, h3⟩
  | pos => exact ⟨h2, h3, h1⟩
  | osp => exact ⟨h3, h1, h2⟩

/-- The keys of a lookup ascend. -/
theorem selectedKeys_ascending (hs : s.IsCoherent) (subject predicate object : Option Term) :
    (s.selectedKeys subject predicate object).Pairwise fun a b => Key.order a b = .lt := by
  unfold selectedKeys
  split
  · rename_i sub pred obj _ _ _
    dsimp only
    rw [Index.withStart_eq_filter (IndexOrder.length_select_le sub pred obj)]
    · exact (Index.toList_ascending _).filter _
    · intro k hk
      exact isWithin_of_mem_index hs (Std.TreeSet.mem_toList.mp hk)
  · exact List.Pairwise.nil

/-- A key is read when it belongs to the selected index and its triple agrees with every
given term. -/
theorem mem_selectedKeys (hs : s.IsCoherent) {subject predicate object : Option Term}
    {k : Key} :
    k ∈ s.selectedKeys subject predicate object ↔
      k ∈ s.index (selectedOrder subject predicate object) ∧
        ∃ t, s.dictionary.Numbers t ((selectedOrder subject predicate object).triple k) ∧
          (TermTriple.ofTriple t).Agrees subject predicate object := by
  unfold selectedKeys
  split
  · rename_i sub pred obj hsub hpred hobj
    have horder : (IndexOrder.select sub pred obj).1 = selectedOrder subject predicate object := by
      rw [IndexOrder.select_fst, isSome_of_resolve? hsub, isSome_of_resolve? hpred,
        isSome_of_resolve? hobj]
      rfl
    dsimp only
    rw [Index.withStart_eq_filter (IndexOrder.length_select_le sub pred obj)
      fun l hl => isWithin_of_mem_index hs (Std.TreeSet.mem_toList.mp hl)]
    rw [List.mem_filter, Std.TreeSet.mem_toList, List.isPrefixOf_iff_prefix,
      IndexOrder.select_prefix_iff, horder]
    refine and_congr_right fun hk => ?_
    -- in the index, the numbers are those of a triple, so agreement is agreement in terms
    obtain ⟨t, -, ht⟩ := exists_of_mem_index hs hk
    rw [agrees_resolve? hs hsub ht.subject, agrees_resolve? hs hpred ht.predicate,
      agrees_resolve? hs hobj ht.object]
    constructor
    · intro h
      exact ⟨t, ht, h⟩
    · rintro ⟨u, hu, h⟩
      rw [hu.triple_unique hs.dictionary ht] at h
      exact h
  · rename_i hnone
    simp only [List.not_mem_nil, false_iff]
    rintro ⟨-, t, ht, hsub, hpred, hobj⟩
    cases h1 : s.resolve? subject with
    | none => exact not_agrees_of_resolve?_eq_none h1 ht.subject hsub
    | some sub =>
      cases h2 : s.resolve? predicate with
      | none => exact not_agrees_of_resolve?_eq_none h2 ht.predicate hpred
      | some pred =>
        cases h3 : s.resolve? object with
        | none => exact not_agrees_of_resolve?_eq_none h3 ht.object hobj
        | some obj => exact hnone sub pred obj h1 h2 h3

/-- A lookup lists the terms behind the keys that it reads. -/
theorem matching_eq_filterMap (s : Store) (subject predicate object : Option Term) :
    s.matching subject predicate object =
      (s.selectedKeys subject predicate object).filterMap fun k =>
        s.termsOf? ((selectedOrder subject predicate object).triple k) := by
  unfold matching selectedKeys
  cases hsub : s.resolve? subject with
  | none => rfl
  | some sub =>
    cases hpred : s.resolve? predicate with
    | none => rfl
    | some pred =>
      cases hobj : s.resolve? object with
      | none => rfl
      | some obj =>
        dsimp only
        rw [IndexOrder.select_fst, isSome_of_resolve? hsub, isSome_of_resolve? hpred,
          isSome_of_resolve? hobj]
        rfl

/-- Every key that a lookup reads has terms behind it. -/
theorem map_termsOf?_selectedKeys (hs : s.IsCoherent) (subject predicate object : Option Term) :
    (s.selectedKeys subject predicate object).map
        (fun k => s.termsOf? ((selectedOrder subject predicate object).triple k)) =
      (s.matching subject predicate object).map some := by
  rw [matching_eq_filterMap, List.map_filterMap_some_eq_filter_map_isSome]
  symm
  rw [List.filter_eq_self]
  intro m hm
  obtain ⟨k, hk, rfl⟩ := List.mem_map.mp hm
  obtain ⟨-, t, ht, -⟩ := (mem_selectedKeys hs).mp hk
  rw [termsOf?_of_numbers hs ht]
  rfl

/-! ## What a lookup lists -/

/-- A lookup lists exactly the stored triples that agree with every given term. -/
theorem mem_matching (hs : s.IsCoherent) {subject predicate object : Option Term}
    {m : TermTriple} :
    m ∈ s.matching subject predicate object ↔
      m.Agrees subject predicate object ∧ ∃ t, s.contains t = true ∧ m = .ofTriple t := by
  rw [matching_eq_filterMap, List.mem_filterMap]
  constructor
  · rintro ⟨k, hk, hm⟩
    obtain ⟨hmem, t, ht, hagrees⟩ := (mem_selectedKeys hs).mp hk
    rw [termsOf?_of_numbers hs ht] at hm
    obtain rfl := Option.some.inj hm
    exact ⟨hagrees, t, contains_iff.mpr ⟨_, ht, (hs.mem_index _ k).mp hmem⟩, rfl⟩
  · rintro ⟨hagrees, t, hc, rfl⟩
    obtain ⟨k, ht, hk⟩ := contains_iff.mp hc
    let order := selectedOrder subject predicate object
    have hkey : order.triple (order.key k) = k := order.triple_key k
    refine ⟨order.key k, (mem_selectedKeys hs).mpr ⟨?_, t, ?_, hagrees⟩, ?_⟩
    · rw [hs.mem_index, hkey]
      exact hk
    · rw [hkey]
      exact ht
    · rw [hkey]
      exact termsOf?_of_numbers hs ht

/-- A lookup lists no triple twice. -/
theorem matching_nodup (hs : s.IsCoherent) (subject predicate object : Option Term) :
    (s.matching subject predicate object).Nodup := by
  rw [matching_eq_filterMap]
  have hkeys : (s.selectedKeys subject predicate object).Nodup := by
    refine (selectedKeys_ascending hs subject predicate object).imp ?_
    rintro a b hlt rfl
    rw [Key.order_eq_lt] at hlt
    omega
  refine hkeys.filterMap fun k l m hk hl => ?_
  have h := termsOf?_injective hs hk hl
  rw [← (selectedOrder subject predicate object).key_triple k, h, IndexOrder.key_triple]

/-! ## Typed lookups -/

/-- A typed lookup loses no triple of the lookup by terms. -/
theorem map_ofTriple_find (hs : s.IsCoherent) (q : TripleQuery) :
    (s.find q).map TermTriple.ofTriple =
      s.matching (q.subject.map Subject.toTerm) (q.predicate.map Term.iri) q.object := by
  unfold find
  rw [List.map_filterMap]
  refine Eq.trans (List.filterMap_congr fun m hm => ?_) List.filterMap_some
  obtain ⟨-, t, -, rfl⟩ := (mem_matching hs).mp hm
  show (Triple.ofTerms? t.subject.toTerm (.iri t.predicate) t.object).map _ = _
  rw [Triple.ofTerms?_toTerm]
  rfl

/-- A triple agrees with a typed query when its terms agree with the terms of the query. -/
theorem agrees_ofTriple {q : TripleQuery} {t : Triple} :
    (TermTriple.ofTriple t).Agrees (q.subject.map Subject.toTerm) (q.predicate.map Term.iri)
      q.object ↔ q.agrees t = true := by
  obtain ⟨sub, pred, obj⟩ := q
  unfold TermTriple.Agrees TripleQuery.agrees
  simp only [Bool.and_eq_true, and_assoc]
  refine and_congr ?_ (and_congr ?_ ?_)
  · cases sub with
    | none => simp
    | some x =>
      simp only [Option.map_some, Option.some.injEq, forall_eq', Option.all_some, beq_iff_eq]
      exact ⟨Subject.toTerm_injective, congrArg _⟩
  · cases pred <;> simp [TermTriple.ofTriple]
  · cases obj <;> simp [TermTriple.ofTriple]

/-- A typed lookup lists exactly the stored triples that agree with the query. -/
theorem mem_find (hs : s.IsCoherent) {q : TripleQuery} {t : Triple} :
    t ∈ s.find q ↔ s.contains t = true ∧ q.agrees t = true := by
  have hmap : t ∈ s.find q ↔ TermTriple.ofTriple t ∈ (s.find q).map TermTriple.ofTriple := by
    rw [List.mem_map_of_injective fun _ _ => TermTriple.ofTriple_injective]
  rw [hmap, map_ofTriple_find hs, mem_matching hs, agrees_ofTriple]
  constructor
  · rintro ⟨hagrees, u, hc, hu⟩
    rw [TermTriple.ofTriple_injective hu]
    exact ⟨hc, by rwa [← TermTriple.ofTriple_injective hu]⟩
  · rintro ⟨hc, hagrees⟩
    exact ⟨hagrees, t, hc, rfl⟩

/-- A typed lookup lists no triple twice. -/
theorem find_nodup (hs : s.IsCoherent) (q : TripleQuery) : (s.find q).Nodup := by
  have h := matching_nodup hs (q.subject.map Subject.toTerm) (q.predicate.map Term.iri) q.object
  rw [← map_ofTriple_find hs] at h
  exact h.of_map _

/-- All stored triples are listed. -/
theorem mem_toList (hs : s.IsCoherent) {t : Triple} : t ∈ s.toList ↔ s.contains t = true := by
  unfold toList
  rw [mem_find hs]
  simp [TripleQuery.agrees]

/-- No triple is listed twice. -/
theorem toList_nodup (hs : s.IsCoherent) : s.toList.Nodup := find_nodup hs ⟨none, none, none⟩

/-- A typed lookup picks the triples that agree with the query from all of them. -/
theorem find_perm_filter (hs : s.IsCoherent) (q : TripleQuery) :
    (s.find q).Perm (s.toList.filter q.agrees) := by
  rw [List.perm_ext_iff_of_nodup (find_nodup hs q) ((toList_nodup hs).filter _)]
  intro t
  rw [mem_find hs, List.mem_filter, mem_toList hs]

/-! ## Counting -/

/-- A lookup without given terms reads the whole first index. -/
theorem selectedKeys_open (hs : s.IsCoherent) :
    s.selectedKeys none none none = s.spo.toList := by
  have hlen : ([] : List Nat).length ≤ 3 := Nat.zero_le 3
  show s.spo.withStart [] s.dictionary.size = _
  rw [Index.withStart_eq_filter hlen]
  · exact List.filter_eq_self.mpr fun _ _ => rfl
  · intro k hk
    have hmem : k ∈ s.index .spo := Std.TreeSet.mem_toList.mp hk
    exact isWithin_of_mem_index hs hmem

/-- The count is the length of the list of all triples. -/
theorem count_eq_length (hs : s.IsCoherent) : s.count = s.toList.length := by
  have hmatch := congrArg List.length (map_ofTriple_find hs ⟨none, none, none⟩)
  have hkeys := congrArg List.length (map_termsOf?_selectedKeys hs none none none)
  simp only [List.length_map, selectedKeys_open hs, Std.TreeSet.length_toList] at hmatch hkeys
  exact hkeys.trans hmatch.symm

/-- A store is empty when its count is zero. -/
theorem isEmpty_iff (s : Store) : s.isEmpty = true ↔ s.count = 0 := by
  unfold isEmpty count
  rw [Std.TreeSet.isEmpty_eq_size_eq_zero, beq_iff_eq]

/-! ## The terms at one position -/

/-- The term of a triple that leads its key. -/
def TermTriple.leading : IndexOrder → TermTriple → Term
  | .spo, m => m.subject
  | .pos, m => m.predicate
  | .osp, m => m.object

/-- The leading term has the leading number. -/
theorem id?_leading {order : IndexOrder} {t : Triple} {k : Key}
    (h : s.dictionary.Numbers t (order.triple k)) :
    s.dictionary.id? ((TermTriple.ofTriple t).leading order) = some k.1 := by
  cases order with
  | spo => exact h.subject
  | pos => exact h.predicate
  | osp => exact h.object

/-- The leading terms of an index are the leading terms of the stored triples. -/
theorem mem_leadingTerms (hs : s.IsCoherent) {order : IndexOrder} {x : Term} :
    x ∈ s.leadingTerms order ↔
      ∃ t, s.contains t = true ∧ (TermTriple.ofTriple t).leading order = x := by
  unfold leadingTerms
  rw [List.mem_filterMap]
  constructor
  · rintro ⟨n, hn, hx⟩
    obtain ⟨k, hk, rfl⟩ := Index.mem_leading.mp hn
    obtain ⟨t, hc, ht⟩ := exists_of_mem_index hs (Std.TreeSet.mem_toList.mp hk)
    have hlead := (hs.dictionary _ _).mp (id?_leading ht)
    exact ⟨t, hc, Option.some.inj (hlead.symm.trans hx)⟩
  · rintro ⟨t, hc, rfl⟩
    obtain ⟨k, ht, hk⟩ := contains_iff.mp hc
    rw [← order.triple_key k] at ht hk
    refine ⟨(order.key k).1, Index.mem_leading.mpr ⟨order.key k, ?_, rfl⟩, ?_⟩
    · exact Std.TreeSet.mem_toList.mpr ((hs.mem_index order _).mpr hk)
    · exact (hs.dictionary _ _).mp (id?_leading ht)

/-- No leading term is listed twice. -/
theorem leadingTerms_nodup (hs : s.IsCoherent) (order : IndexOrder) :
    (s.leadingTerms order).Nodup := by
  have hnum : (Index.leading (s.index order).toList).Nodup :=
    (Index.leading_ascending (Index.toList_ascending _)).imp Nat.ne_of_lt
  refine hnum.filterMap fun m n x hm hn => ?_
  have hm' := (hs.dictionary x m).mpr hm
  rw [(hs.dictionary x n).mpr hn] at hm'
  exact (Option.some.inj hm').symm

/-- The leading terms that can be seen as what stands at a position are listed as that, each
once. -/
theorem filterMap_leadingTerms {α : Type} (hs : s.IsCoherent) (order : IndexOrder)
    {view : Term → Option α} {term : α → Term} (hview : ∀ x a, view x = some a ↔ x = term a) :
    ((s.leadingTerms order).filterMap view).Nodup ∧
      ∀ a, a ∈ (s.leadingTerms order).filterMap view ↔
        ∃ t, s.contains t = true ∧ (TermTriple.ofTriple t).leading order = term a := by
  constructor
  · refine (leadingTerms_nodup hs order).filterMap fun x y a hx hy => ?_
    rw [(hview x a).mp hx, (hview y a).mp hy]
  · intro a
    rw [List.mem_filterMap, ← mem_leadingTerms hs]
    constructor
    · rintro ⟨x, hx, ha⟩
      rwa [← (hview x a).mp ha]
    · intro ha
      exact ⟨term a, ha, (hview _ a).mpr rfl⟩

/-- Only the term of a subject can be seen as that subject. -/
theorem toSubject?_eq_some (x : Term) (sub : Subject) :
    x.toSubject? = some sub ↔ x = sub.toTerm := by
  cases x <;> cases sub <;> simp [Term.toSubject?, Subject.toTerm]

/-- Only the term of an IRI can be seen as that IRI. -/
theorem toIri?_eq_some (x : Term) (node : Iri) : x.toIri? = some node ↔ x = .iri node := by
  cases x <;> simp [Term.toIri?]

/-- The subjects are those of the stored triples, each once. -/
theorem subjects_spec (hs : s.IsCoherent) :
    s.subjects.Nodup ∧ ∀ x, x ∈ s.subjects ↔ ∃ t, s.contains t = true ∧ t.subject = x := by
  obtain ⟨hnodup, hmem⟩ := filterMap_leadingTerms hs .spo toSubject?_eq_some
  refine ⟨hnodup, fun x => (hmem x).trans (exists_congr fun t => and_congr_right fun _ => ?_)⟩
  exact ⟨Subject.toTerm_injective, congrArg Subject.toTerm⟩

/-- The predicates are those of the stored triples, each once. -/
theorem predicates_spec (hs : s.IsCoherent) :
    s.predicates.Nodup ∧ ∀ x, x ∈ s.predicates ↔ ∃ t, s.contains t = true ∧ t.predicate = x := by
  obtain ⟨hnodup, hmem⟩ := filterMap_leadingTerms hs .pos toIri?_eq_some
  refine ⟨hnodup, fun x => (hmem x).trans (exists_congr fun t => and_congr_right fun _ => ?_)⟩
  exact ⟨Term.iri.inj, congrArg Term.iri⟩

/-- The objects are those of the stored triples, each once. -/
theorem objects_spec (hs : s.IsCoherent) :
    s.objects.Nodup ∧ ∀ x, x ∈ s.objects ↔ ∃ t, s.contains t = true ∧ t.object = x :=
  ⟨leadingTerms_nodup hs .osp, fun _ => mem_leadingTerms hs⟩

end Store

end RdfStore
