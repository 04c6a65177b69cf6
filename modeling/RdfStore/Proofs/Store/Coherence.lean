import RdfStore.Proofs.Store.Index
import RdfStore.Store.Basic

/-!
# Coherent stores

In a coherent store every key of the first index numbers the terms of a triple, the other
two indexes hold the rotations of its keys, and only the terms of stored triples have
numbers. Adding keeps that, makes its triple a member and leaves all other triples as they
were.
-/

set_option autoImplicit false

namespace RdfStore

/-- A subject is known by its term. -/
theorem Subject.toTerm_injective {a b : Subject} (h : a.toTerm = b.toTerm) : a = b := by
  cases a <;> cases b <;> cases h <;> rfl

/-- A triple is known by its terms. -/
theorem Store.TermTriple.ofTriple_injective {t u : Triple}
    (h : TermTriple.ofTriple t = TermTriple.ofTriple u) : t = u := by
  obtain ⟨s, p, o⟩ := t
  obtain ⟨s', p', o'⟩ := u
  simp only [ofTriple, TermTriple.mk.injEq, Term.iri.injEq] at h
  obtain ⟨hs, hp, ho⟩ := h
  rw [Subject.toTerm_injective hs, hp, ho]

namespace Dictionary

/-- The numbers of a key are those of the terms of a triple. -/
structure Numbers (d : Dictionary) (t : Triple) (k : Key) : Prop where
  subject : d.id? t.subject.toTerm = some k.1
  predicate : d.id? (.iri t.predicate) = some k.2.1
  object : d.id? t.object = some k.2.2

/-- Numbers the terms of a triple. -/
def internTriple (d : Dictionary) (t : Triple) : Key × Dictionary :=
  let (subject, d) := d.intern t.subject.toTerm
  let (predicate, d) := d.intern (.iri t.predicate)
  let (object, d) := d.intern t.object
  ((subject, predicate, object), d)

variable {d : Dictionary} {t u : Triple} {k l : Key}

/-- The terms of a triple are numbered one after the other. -/
theorem internTriple_eq (d : Dictionary) (t : Triple) :
    d.internTriple t =
      let subject := d.intern t.subject.toTerm
      let predicate := subject.2.intern (.iri t.predicate)
      let object := predicate.2.intern t.object
      ((subject.1, predicate.1, object.1), object.2) := by
  unfold internTriple
  obtain ⟨subject, d₁⟩ := d.intern t.subject.toTerm
  dsimp only

/-- A triple has one key. -/
theorem Numbers.key_unique (h : d.Numbers t k) (h' : d.Numbers t l) : k = l := by
  have hs := h.subject.symm.trans h'.subject
  have hp := h.predicate.symm.trans h'.predicate
  have ho := h.object.symm.trans h'.object
  exact Prod.ext (Option.some.inj hs) (Prod.ext (Option.some.inj hp) (Option.some.inj ho))

/-- A key belongs to one triple. -/
theorem Numbers.triple_unique (hd : d.IsCoherent) (h : d.Numbers t k) (h' : d.Numbers u k) :
    t = u := by
  apply Store.TermTriple.ofTriple_injective
  unfold Store.TermTriple.ofTriple
  rw [eq_of_id? hd h.subject h'.subject, eq_of_id? hd h.predicate h'.predicate,
    eq_of_id? hd h.object h'.object]

/-- The numbers of a triple are smaller than the number of terms. -/
theorem Numbers.isWithin (hd : d.IsCoherent) (h : d.Numbers t k) : k.IsWithin d.size :=
  ⟨Nat.le_of_lt (lt_size_of_id? hd h.subject), Nat.le_of_lt (lt_size_of_id? hd h.predicate),
    Nat.le_of_lt (lt_size_of_id? hd h.object)⟩

/-- Numbering a triple keeps terms and numbers inverse to each other. -/
theorem isCoherent_internTriple (hd : d.IsCoherent) (t : Triple) :
    (d.internTriple t).2.IsCoherent := by
  rw [internTriple_eq]
  exact isCoherent_intern (isCoherent_intern (isCoherent_intern hd _) _) _

/-- Numbering a triple takes no number back. -/
theorem id?_internTriple_of_id? {x : Term} {id : Nat} (h : d.id? x = some id) :
    (d.internTriple t).2.id? x = some id := by
  rw [internTriple_eq]
  exact id?_intern_of_id? (id?_intern_of_id? (id?_intern_of_id? h))

/-- Numbering a triple keeps the keys of others. -/
theorem Numbers.internTriple (h : d.Numbers u k) : (d.internTriple t).2.Numbers u k :=
  ⟨id?_internTriple_of_id? h.subject, id?_internTriple_of_id? h.predicate,
    id?_internTriple_of_id? h.object⟩

/-- The key that is given out numbers the triple. -/
theorem numbers_internTriple (d : Dictionary) (t : Triple) :
    (d.internTriple t).2.Numbers t (d.internTriple t).1 := by
  rw [internTriple_eq]
  exact ⟨id?_intern_of_id? (id?_intern_of_id? (id?_intern_self d _)),
    id?_intern_of_id? (id?_intern_self _ _), id?_intern_self _ _⟩

/-- A number that was not there before is in the key that is given out. -/
theorem mem_numbers_of_id?_internTriple {x : Term} {id : Nat}
    (h : (d.internTriple t).2.id? x = some id) :
    id ∈ (d.internTriple t).1.numbers ∨ d.id? x = some id := by
  have hnum := numbers_internTriple d t
  have hterm : x = t.subject.toTerm ∨ x = .iri t.predicate ∨ x = t.object ∨
      d.id? x = some id := by
    rw [internTriple_eq] at h
    rcases id?_of_id?_intern h with ho | h
    · exact Or.inr (Or.inr (Or.inl ho))
    · rcases id?_of_id?_intern h with hp | h
      · exact Or.inr (Or.inl hp)
      · rcases id?_of_id?_intern h with hs | h
        · exact Or.inl hs
        · exact Or.inr (Or.inr (Or.inr h))
  unfold Key.numbers
  rcases hterm with rfl | rfl | rfl | hold
  · rw [hnum.subject] at h
    simp only [List.mem_cons, Option.some.inj h, true_or]
  · rw [hnum.predicate] at h
    simp only [List.mem_cons, Option.some.inj h, true_or, or_true]
  · rw [hnum.object] at h
    simp only [List.mem_cons, Option.some.inj h, true_or, or_true]
  · exact Or.inr hold

end Dictionary

namespace Store

/-- The three indexes hold the same triples, whose terms are the ones with numbers. -/
structure IsCoherent (s : Store) : Prop where
  dictionary : s.dictionary.IsCoherent
  /-- Every key numbers the terms of a triple. -/
  numbered : ∀ k ∈ s.spo, ∃ t, s.dictionary.Numbers t k
  pos : ∀ k, IndexOrder.pos.key k ∈ s.pos ↔ k ∈ s.spo
  osp : ∀ k, IndexOrder.osp.key k ∈ s.osp ↔ k ∈ s.spo
  /-- Every number stands in a key. -/
  used : ∀ x id, s.dictionary.id? x = some id → ∃ k ∈ s.spo, id ∈ k.numbers

/-- A store without triples is coherent. -/
theorem isCoherent_empty (clock : Clock) : (empty clock).IsCoherent where
  dictionary := Dictionary.isCoherent_empty
  numbered k h := absurd h (Index.not_mem_empty k)
  pos k := iff_of_false (Index.not_mem_empty _) (Index.not_mem_empty k)
  osp k := iff_of_false (Index.not_mem_empty _) (Index.not_mem_empty k)
  used x id h := by
    unfold empty Dictionary.empty Dictionary.id? at h
    rw [Std.HashMap.getElem?_empty] at h
    cases h

variable {s : Store}

/-- Membership of a triple is membership of its key. -/
theorem contains_iff {t : Triple} :
    s.contains t = true ↔ ∃ k, s.dictionary.Numbers t k ∧ k ∈ s.spo := by
  unfold contains
  constructor
  · intro h
    split at h
    · rename_i sub pred obj hs hp ho
      exact ⟨(sub, pred, obj), ⟨hs, hp, ho⟩, Std.TreeSet.contains_iff_mem.mp h⟩
    · cases h
  · rintro ⟨⟨sub, pred, obj⟩, ⟨hs, hp, ho⟩, hk⟩
    rw [hs, hp, ho]
    exact Std.TreeSet.contains_iff_mem.mpr hk

/-- No triple is a member of an empty store. -/
theorem contains_empty (clock : Clock) (t : Triple) : (empty clock).contains t = false := by
  rw [Bool.eq_false_iff, ne_eq, contains_iff]
  rintro ⟨k, -, hk⟩
  exact Index.not_mem_empty k hk

/-- The keys of every index are the rotated keys of the triples. -/
theorem IsCoherent.mem_index (hs : s.IsCoherent) (order : IndexOrder) (k : Key) :
    k ∈ s.index order ↔ order.triple k ∈ s.spo := by
  cases order with
  | spo => rfl
  | pos => exact hs.pos (IndexOrder.pos.triple k)
  | osp => exact hs.osp (IndexOrder.osp.triple k)

/-- The key of a triple that is a member, seen from the key. -/
theorem IsCoherent.contains_of_mem (hs : s.IsCoherent) {k : Key} (hk : k ∈ s.spo) :
    ∃ t, s.dictionary.Numbers t k ∧ s.contains t = true := by
  obtain ⟨t, ht⟩ := hs.numbered k hk
  exact ⟨t, ht, contains_iff.mpr ⟨k, ht, hk⟩⟩

/-! ## Adding a triple -/

/-- The store after adding a triple whose key is new. -/
def insertKey (s : Store) (k : Key) : Store :=
  { s with spo := s.spo.insert k
           pos := s.pos.insert (IndexOrder.pos.key k)
           osp := s.osp.insert (IndexOrder.osp.key k) }

/-- Every index gets the rotated key. -/
theorem index_insertKey (s : Store) (k : Key) (order : IndexOrder) :
    (s.insertKey k).index order = (s.index order).insert (order.key k) := by
  cases order <;> rfl

/-- Adding numbers the terms of the triple and inserts its key unless it is there. -/
theorem add_eq (s : Store) (t : Triple) :
    s.add t =
      let (k, d) := s.dictionary.internTriple t
      if s.spo.contains k then (false, { s with dictionary := d })
      else (true, ({ s with dictionary := d } : Store).insertKey k) := by
  obtain ⟨d, spo, pos, osp, clock, blankCounter⟩ := s
  unfold add Dictionary.internTriple
  dsimp only
  obtain ⟨subject, d₁⟩ := d.intern t.subject.toTerm
  dsimp only
  obtain ⟨predicate, d₂⟩ := d₁.intern (.iri t.predicate)
  dsimp only
  obtain ⟨object, d₃⟩ := d₂.intern t.object
  rfl

/-- Adding counts neither ticks nor names. -/
theorem add_clock (s : Store) (t : Triple) :
    (s.add t).2.clock = s.clock ∧ (s.add t).2.blankCounter = s.blankCounter := by
  rw [add_eq]
  obtain ⟨k, d⟩ := s.dictionary.internTriple t
  dsimp only
  split <;> exact ⟨rfl, rfl⟩

/-- Adding leaves the dictionary with the terms of the triple numbered. -/
theorem add_dictionary (s : Store) (t : Triple) :
    (s.add t).2.dictionary = (s.dictionary.internTriple t).2 := by
  rw [add_eq]
  obtain ⟨k, d⟩ := s.dictionary.internTriple t
  dsimp only
  split <;> rfl

/-- Rotating keys does not make two of them equal. -/
theorem key_order_eq_iff (order : IndexOrder) (k l : Key) :
    Key.order (order.key k) (order.key l) = .eq ↔ Key.order k l = .eq := by
  rw [Std.LawfulEqCmp.compare_eq_iff_eq, Std.LawfulEqCmp.compare_eq_iff_eq]
  constructor
  · intro h
    rw [← order.triple_key k, h, order.triple_key]
  · rintro rfl
    rfl

/-- After adding, the keys are those from before and that of the triple. -/
theorem mem_spo_add {t : Triple} {k : Key} :
    k ∈ (s.add t).2.spo ↔ (s.dictionary.internTriple t).1 = k ∨ k ∈ s.spo := by
  rw [add_eq]
  obtain ⟨l, d⟩ := s.dictionary.internTriple t
  dsimp only
  split
  · rename_i h
    constructor
    · exact Or.inr
    · rintro (rfl | hk)
      · exact Std.TreeSet.contains_iff_mem.mp h
      · exact hk
  · show k ∈ s.spo.insert _ ↔ _
    rw [Std.TreeSet.mem_insert, Std.LawfulEqCmp.compare_eq_iff_eq]

/-- Adding keeps the other indexes rotations of the first one. -/
theorem mem_index_add (hs : s.IsCoherent) (t : Triple) (order : IndexOrder) (k : Key) :
    order.key k ∈ (s.add t).2.index order ↔ k ∈ (s.add t).2.spo := by
  have hold : order.key k ∈ s.index order ↔ k ∈ s.spo := by
    rw [hs.mem_index, order.triple_key]
  rw [add_eq]
  obtain ⟨l, d⟩ := s.dictionary.internTriple t
  dsimp only
  split
  · exact hold
  · rw [index_insertKey, Std.TreeSet.mem_insert, key_order_eq_iff]
    show _ ↔ k ∈ s.spo.insert _
    rw [Std.TreeSet.mem_insert]
    exact or_congr Iff.rfl hold

/-- Adding keeps a store coherent. -/
theorem isCoherent_add (hs : s.IsCoherent) (t : Triple) : (s.add t).2.IsCoherent where
  dictionary := by
    rw [add_dictionary]
    exact Dictionary.isCoherent_internTriple hs.dictionary t
  numbered k hk := by
    rw [add_dictionary]
    rcases mem_spo_add.mp hk with rfl | hk
    · exact ⟨t, Dictionary.numbers_internTriple _ t⟩
    · obtain ⟨u, hu⟩ := hs.numbered k hk
      exact ⟨u, hu.internTriple⟩
  pos := mem_index_add hs t .pos
  osp := mem_index_add hs t .osp
  used x id h := by
    rw [add_dictionary] at h
    rcases Dictionary.mem_numbers_of_id?_internTriple h with hnew | hold
    · exact ⟨_, mem_spo_add.mpr (Or.inl rfl), hnew⟩
    · obtain ⟨k, hk, hid⟩ := hs.used x id hold
      exact ⟨k, mem_spo_add.mpr (Or.inr hk), hid⟩

/-- The members after adding are the triple and the members before. -/
theorem contains_add (hs : s.IsCoherent) {t u : Triple} :
    (s.add t).2.contains u = true ↔ u = t ∨ s.contains u = true := by
  have hd := Dictionary.isCoherent_internTriple hs.dictionary t
  have ht := Dictionary.numbers_internTriple s.dictionary t
  rw [contains_iff, contains_iff, add_dictionary]
  -- numbers are never taken back, so an old key still belongs to its old triple
  constructor
  · rintro ⟨k, hu, hk⟩
    rcases mem_spo_add.mp hk with rfl | hk
    · exact Or.inl (hu.triple_unique hd ht)
    · obtain ⟨v, hv⟩ := hs.numbered k hk
      have huv : u = v := hu.triple_unique hd hv.internTriple
      rw [← huv] at hv
      exact Or.inr ⟨k, hv, hk⟩
  · rintro (rfl | ⟨k, hu, hk⟩)
    · exact ⟨_, ht, mem_spo_add.mpr (Or.inl rfl)⟩
    · exact ⟨k, hu.internTriple, mem_spo_add.mpr (Or.inr hk)⟩

/-- Adding answers whether the triple was not a member. -/
theorem add_fst (hs : s.IsCoherent) (t : Triple) : (s.add t).1 = !s.contains t := by
  have hd := Dictionary.isCoherent_internTriple hs.dictionary t
  have ht := Dictionary.numbers_internTriple s.dictionary t
  have hkey : s.spo.contains (s.dictionary.internTriple t).1 = s.contains t := by
    rw [Bool.eq_iff_iff, contains_iff, Std.TreeSet.contains_iff_mem]
    constructor
    · intro hk
      obtain ⟨u, hu⟩ := hs.numbered _ hk
      rw [hu.internTriple.triple_unique hd ht] at hu
      exact ⟨_, hu, hk⟩
    · rintro ⟨k, hk, hmem⟩
      rw [ht.key_unique hk.internTriple]
      exact hmem
  rw [add_eq]
  dsimp only
  rw [hkey]
  split
  · rename_i h
    rw [h]
    rfl
  · rename_i h
    rw [Bool.not_eq_true] at h
    rw [h]
    rfl

end Store

end RdfStore
