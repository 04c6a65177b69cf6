import RdfStore.Proofs.Store.Refinement

/-!
# The numbers of a store

What a run of calls leaves behind: the map and the array of the dictionary are inverse to each
other on the numbers below the term count, the three indexes are one set of triples in three
orders, and exactly the terms of the stored triples are numbered. A call that adds a triple
numbers its terms before it knows whether the triple is new; no number is left without a use,
because a triple that is not new has no new terms.
-/

set_option autoImplicit false

namespace RdfStore

def Triple.terms (t : Triple) : List Term := [t.subject.toTerm, .iri t.predicate, t.object]

/-- A subject is an address or a blank node. -/
theorem Subject.isIri_or_isBlank (subject : Subject) :
    subject.toTerm.isIri = true ∨ subject.toTerm.isBlank = true := by
  cases subject <;> simp [Subject.toTerm, Term.isIri, Term.isBlank]

/-- Turning a key round keeps its numbers. -/
theorem IndexOrder.mem_numbers_triple (order : IndexOrder) {k : Key} {id : Nat} :
    id ∈ (order.triple k).numbers ↔ id ∈ k.numbers := by
  obtain ⟨a, b, c⟩ := k
  cases order <;> simp only [IndexOrder.triple, Key.numbers, List.mem_cons] <;> tauto

/-- The numbers in the key of a triple are those of its terms. -/
theorem Dictionary.Numbers.mem_numbers {d : Dictionary} {t : Triple} {k : Key}
    (h : d.Numbers t k) {id : Nat} : id ∈ k.numbers ↔ ∃ x ∈ t.terms, d.id? x = some id := by
  simp [Key.numbers, Triple.terms, h.subject, h.predicate, h.object, eq_comm]

namespace Store

def usedTerms (s : Store) : Finset Term := (s.toList.flatMap Triple.terms).toFinset

/-- The dictionary and the three indexes of a store fit together. -/
structure IsNumbered (s : Store) : Prop where
  /-- The map from terms to numbers and the array of terms are inverse to each other. -/
  inverse : ∀ (x : Term) (id : Nat),
    s.dictionary.ids[x]? = some id ↔ s.dictionary.terms[id]? = some x
  /-- The numbers of terms are the ones below the term count. -/
  numbers : ∀ id, id < s.termCount ↔ ∃ x : Term, s.dictionary.ids[x]? = some id
  /-- Every index is the image of the first one under its rotation. -/
  rotated : ∀ order k, k ∈ s.index order ↔ ∃ l ∈ s.spo, order.key l = k
  below : ∀ order, ∀ k ∈ s.index order, ∀ id ∈ k.numbers, id < s.termCount
  /-- The terms behind a key can stand where they stand. -/
  kinds : ∀ order, ∀ k ∈ s.index order, ∃ m, s.termsOf? (order.triple k) = some m ∧
    (m.subject.isIri = true ∨ m.subject.isBlank = true) ∧ m.predicate.isIri = true
  interned : ∀ x, s.containsTerm x = true ↔ ∃ t, s.contains t = true ∧ x ∈ t.terms
  termCount : s.termCount = s.usedTerms.card

variable {s : Store} {x : Term} {k : Key} {order : IndexOrder}

/-- A store knows a term when the term has a number. -/
theorem containsTerm_iff : s.containsTerm x = true ↔ ∃ id, s.dictionary.id? x = some id :=
  Option.isSome_iff_exists

/-- The numbers below the count are those that are in use. -/
theorem lt_termCount_iff (hs : s.IsCoherent) {id : Nat} :
    id < s.termCount ↔ ∃ x, s.dictionary.id? x = some id := by
  constructor
  · intro h
    have hterm : s.dictionary.term? id = some s.dictionary.terms[id] :=
      Array.getElem?_eq_getElem h
    exact ⟨_, (hs.dictionary _ id).mpr hterm⟩
  · rintro ⟨x, hx⟩
    exact Dictionary.lt_size_of_id? hs.dictionary hx

/-- The numbers in a key are those of terms. -/
theorem exists_of_mem_numbers (hs : s.IsCoherent) (hk : k ∈ s.index order) {id : Nat}
    (hid : id ∈ k.numbers) : ∃ x, s.dictionary.id? x = some id := by
  obtain ⟨t, -, ht⟩ := exists_of_mem_index hs hk
  rw [← order.mem_numbers_triple, ht.mem_numbers] at hid
  obtain ⟨x, -, hx⟩ := hid
  exact ⟨x, hx⟩

/-- A store knows exactly the terms of its triples. -/
theorem containsTerm_iff_exists_contains (hs : s.IsCoherent) :
    s.containsTerm x = true ↔ ∃ t, s.contains t = true ∧ x ∈ t.terms := by
  rw [containsTerm_iff]
  constructor
  · rintro ⟨id, hid⟩
    obtain ⟨k, hk, hmem⟩ := hs.used x id hid
    obtain ⟨t, ht, hc⟩ := hs.contains_of_mem hk
    obtain ⟨y, hy, hyid⟩ := ht.mem_numbers.mp hmem
    rw [Dictionary.eq_of_id? hs.dictionary hid hyid]
    exact ⟨t, hc, hy⟩
  · rintro ⟨t, hc, hx⟩
    obtain ⟨k, ht, -⟩ := contains_iff.mp hc
    simp only [Triple.terms, List.mem_cons, List.not_mem_nil, or_false] at hx
    rcases hx with rfl | rfl | rfl
    · exact ⟨_, ht.subject⟩
    · exact ⟨_, ht.predicate⟩
    · exact ⟨_, ht.object⟩

/-- The terms in use are those that the store contains. -/
theorem mem_usedTerms (hs : s.IsCoherent) : x ∈ s.usedTerms ↔ s.containsTerm x = true := by
  rw [containsTerm_iff_exists_contains hs]
  simp [usedTerms, mem_toList hs]

/-- No term is in the array twice. -/
theorem terms_nodup (hs : s.IsCoherent) : s.dictionary.terms.toList.Nodup := by
  rw [List.nodup_iff_getElem?_ne_getElem?]
  intro i j hij hj heq
  rw [Array.getElem?_toList, Array.getElem?_toList] at heq
  have hterm : s.dictionary.terms[j]? = some s.dictionary.terms[j] :=
    Array.getElem?_eq_getElem hj
  have hi := (hs.dictionary _ i).mpr (heq.trans hterm)
  have hj := (hs.dictionary _ j).mpr hterm
  have : i = j := Option.some.inj (hi.symm.trans hj)
  omega

/-- The terms of the array are the ones in use. -/
theorem toFinset_terms (hs : s.IsCoherent) : s.dictionary.terms.toList.toFinset = s.usedTerms := by
  ext x
  rw [mem_usedTerms hs, containsTerm_iff, List.mem_toFinset, Array.mem_toList_iff,
    Array.mem_iff_getElem?]
  exact exists_congr fun id => (hs.dictionary x id).symm

/-- In a coherent store dictionary and indexes fit together. -/
theorem IsCoherent.isNumbered (hs : s.IsCoherent) : s.IsNumbered where
  inverse := hs.dictionary
  numbers _ := lt_termCount_iff hs
  rotated order k := by
    rw [hs.mem_index]
    constructor
    · intro h
      exact ⟨order.triple k, h, order.key_triple k⟩
    · rintro ⟨l, hl, rfl⟩
      rwa [order.triple_key]
  below order k hk id hid := (lt_termCount_iff hs).mpr (exists_of_mem_numbers hs hk hid)
  kinds order k hk := by
    obtain ⟨t, -, ht⟩ := exists_of_mem_index hs hk
    exact ⟨.ofTriple t, termsOf?_of_numbers hs ht, t.subject.isIri_or_isBlank, rfl⟩
  interned x := containsTerm_iff_exists_contains hs
  termCount := by
    rw [← toFinset_terms hs, List.toFinset_card_of_nodup (terms_nodup hs)]
    exact Array.length_toList.symm

/-- Whatever calls were made, on whatever clock, dictionary and indexes fit together. -/
theorem isNumbered_performAll (clock : Clock) (calls : List Call) :
    ((empty clock).performAll calls).2.IsNumbered :=
  (isCoherent_performAll (isCoherent_empty clock) calls).isNumbered

end Store

end RdfStore
