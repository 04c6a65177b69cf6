import RdfStore.Proofs.Turtle.Directive
import RdfStore.Proofs.Turtle.Grouping

/-!
# Written triples come back

The text of some triples declares every prefix that it uses, so each abbreviation is expanded to
the IRI that it stands for. A text in which no subject looks like a directive is read as the
sorted triples, each once, under new names for their blank nodes. A text in which one does is not
read at all. Whether one does is seen from the first triple of each subject.
-/

set_option autoImplicit false

namespace RdfStore.Turtle

open RdfStore.Syntax RdfStore.Text

variable {ns : Namespaces} {ts : List Triple}

/-! ## Declared prefixes -/

/-- The IRIs of a triple that may be abbreviated, by their places. -/
theorem mentionedIris_eq (t : Triple) : mentionedIris t = termIris t.subject.toTerm ++
    (if t.predicate = Vocabulary.rdfType then [] else [t.predicate]) ++ termIris t.object := rfl

/-- The IRIs of a well-formed term are well-formed. -/
theorem isWellFormed_of_mem_termIris {t : Term} (ht : t.IsWellFormed) {i : Iri}
    (hi : i ∈ termIris t) : i.IsWellFormed := by
  cases t with
  | iri j =>
    rw [List.mem_singleton.mp hi]
    exact ht
  | blank b => cases hi
  | literal l =>
    obtain ⟨value, kind⟩ := l
    rcases Literal.IsWellFormed.kind_cases ht with hkind | ⟨tag, hkind, -⟩ |
      ⟨datatype, hkind, hdatatype, -⟩
    · cases hkind
      cases hi
    · cases hkind
      cases hi
    · cases hkind
      rw [List.mem_singleton.mp hi]
      exact hdatatype

/-- The IRIs of a well-formed triple are well-formed. -/
theorem isWellFormed_of_mem_mentionedIris {t : Triple} (ht : t.IsWellFormed) {i : Iri}
    (hi : i ∈ mentionedIris t) : i.IsWellFormed := by
  rw [mentionedIris_eq, List.mem_append, List.mem_append] at hi
  rcases hi with (hi | hi) | hi
  · exact isWellFormed_of_mem_termIris ht.subject.toTerm hi
  · split at hi
    · cases hi
    · rw [List.mem_singleton.mp hi]
      exact ht.predicate
  · exact isWellFormed_of_mem_termIris ht.object hi

/-- What a well-formed IRI starts with in front of a simple local name is well-formed. -/
theorem isWellFormed_of_append {start localName : String}
    (hi : (⟨start ++ localName⟩ : Iri).IsWellFormed)
    (hsimple : isSimpleLocalName localName.toList = true) : (⟨start⟩ : Iri).IsWellFormed := by
  obtain ⟨htext, habsolute⟩ := hi.valid
  rw [String.toList_append] at htext habsolute
  have hcolon : ':' ∉ localName.toList := fun hmem =>
    absurd (isNameChar_of_mem_local hsimple _ hmem) (by decide)
  refine Iri.of_eq ?_ (Validity.isAbsolute_of_append habsolute hcolon)
  exact List.all_eq_true.mpr fun c hc =>
    List.all_eq_true.mp htext c (List.mem_append_left _ hc)

/-- Every entry that a text of well-formed triples uses can be declared. -/
theorem usedEntries_fit (hkeys : (ns.entries.map Prod.fst).Nodup)
    (hts : ∀ t ∈ ts, t.IsWellFormed) :
    ∀ e ∈ usedEntries ns ts, IsPrefixName e.1.toList ∧ (⟨e.2⟩ : Iri).IsWellFormed := by
  rintro ⟨name, iri⟩ he
  obtain ⟨hentry, hused⟩ := List.mem_filter.mp he
  obtain ⟨i, hi, hfirst⟩ := List.mem_filterMap.mp (List.contains_iff_mem.mp hused)
  obtain ⟨t, ht, hmention⟩ := List.mem_flatMap.mp hi
  obtain ⟨⟨used, localName⟩, habbreviation, hname⟩ := Option.map_eq_some_iff.mp hfirst
  obtain rfl : used = name := hname
  obtain ⟨hwritable, start, hstart, htext, hsimple⟩ := abbreviation?_eq_some habbreviation
  -- every prefix stands once, so the entry is the one that the abbreviation comes from
  obtain rfl : start = iri := Option.some.inj
    ((lookup_of_mem hkeys hstart).symm.trans (lookup_of_mem hkeys hentry))
  have hwell := isWellFormed_of_mem_mentionedIris (hts t ht) hmention
  have hi : (⟨start ++ localName⟩ : Iri).IsWellFormed := by
    rw [← htext]
    exact hwell
  exact ⟨isPrefixName_of_writable hwritable, isWellFormed_of_append hi hsimple⟩

/-- The prefixes after declarations: the last one first. -/
theorem prefixes_declareAll (scope : IriScope) (entries : List (String × String)) :
    (declareAll scope entries).prefixes = entries.reverse ++ scope.prefixes := by
  induction entries generalizing scope with
  | nil => rfl
  | cons e entries ih =>
    show (declareAll (scope.define e.1 e.2) entries).prefixes = _
    rw [ih, List.reverse_cons, List.append_assoc]
    rfl

/-- Every IRI that a text abbreviates is expanded by its declarations. -/
theorem expands_of_mentioned (hkeys : (ns.entries.map Prod.fst).Nodup) {i : Iri}
    (hi : i ∈ ts.flatMap mentionedIris) :
    Expands (declareAll (IriScope.ofBase none) (usedEntries ns ts)) ns i := by
  intro name localName habbreviation
  obtain ⟨-, start, hstart, htext, -⟩ := abbreviation?_eq_some habbreviation
  have hused : name ∈ usedPrefixes ns ts :=
    List.mem_filterMap.mpr ⟨i, hi, by rw [habbreviation]; rfl⟩
  have hentry : (name, start) ∈ (usedEntries ns ts).reverse :=
    List.mem_reverse.mpr (List.mem_filter.mpr ⟨hstart, List.contains_iff_mem.mpr hused⟩)
  have hnodup : ((usedEntries ns ts).reverse.map Prod.fst).Nodup := by
    rw [List.map_reverse]
    exact List.pairwise_reverse.mpr
      ((hkeys.sublist (List.filter_sublist.map Prod.fst)).imp Ne.symm)
  refine ⟨start, ?_, htext.symm⟩
  rw [prefixes_declareAll]
  show ((usedEntries ns ts).reverse ++ []).lookup name = some start
  rw [List.append_nil]
  exact lookup_of_mem hnodup hentry

/-- The declarations of a text cover its triples. -/
theorem covers_of_mem (hkeys : (ns.entries.map Prod.fst).Nodup) {t : Triple} (ht : t ∈ ts) :
    Covers (declareAll (IriScope.ofBase none) (usedEntries ns ts)) ns true t := by
  have hmention : ∀ i ∈ mentionedIris t,
      Expands (declareAll (IriScope.ofBase none) (usedEntries ns ts)) ns i := fun i hi =>
    expands_of_mentioned hkeys (List.mem_flatMap.mpr ⟨t, ht, hi⟩)
  rw [mentionedIris_eq] at hmention
  refine ⟨fun i hi => ?_, ?_, fun i hi => ?_⟩
  · exact hmention i (List.mem_append_left _ (List.mem_append_left _ hi))
  · by_cases hkeyword : t.predicate = Vocabulary.rdfType
    · exact Or.inl ⟨rfl, hkeyword⟩
    · refine Or.inr (hmention _ (List.mem_append_left _ (List.mem_append_right _ ?_)))
      rw [if_neg hkeyword]
      exact List.mem_cons_self
  · exact hmention i (List.mem_append_right _ hi)

/-! ## Reading what was written -/

/-- The triples of a passage are triples of the list. -/
theorem mem_of_mem_passagesOf {p : Passage} (hp : p ∈ passagesOf (sortedDistinct ts)) {t : Triple}
    (ht : t ∈ p.triples) : t ∈ ts := by
  rw [← mem_sortedDistinct, ← flatMap_passagesOf (sortedDistinct ts)]
  exact List.mem_flatMap.mpr ⟨p, hp, ht⟩

/-- Where no subject looks like a directive, the text is read as the sorted triples, each once,
with their blank nodes renamed. -/
theorem read_write (hkeys : (ns.entries.map Prod.fst).Nodup) (hts : ∀ t ∈ ts, t.IsWellFormed)
    (hlooks : ∀ t, IsFirstOfSubject ts t → looksLikeDirective ns t = false) :
    ∃ f, IsInjectiveOn f ts ∧
      read (write ts ns) none = .ok ((sortedDistinct ts).map (Triple.mapBlank f)) := by
  have hsorted : ∀ t ∈ sortedDistinct ts, t.IsWellFormed := fun t ht =>
    hts t (mem_sortedDistinct.mp ht)
  have hpassages : ∀ p ∈ passagesOf (sortedDistinct ts), ∀ t ∈ p.triples, t.IsWellFormed ∧
      Covers (declareAll (IriScope.ofBase none) (usedEntries ns (sortedDistinct ts))) ns true
        t := by
    intro p hp t ht
    have hmem := mem_of_mem_passagesOf hp ht
    exact ⟨hts t hmem, covers_of_mem hkeys (mem_sortedDistinct.mpr hmem)⟩
  obtain ⟨f, hinjective, hread⟩ := read_documentText (usedEntries ns (sortedDistinct ts))
    (separation ns (sortedDistinct ts)) (usedEntries_fit hkeys hsorted) (wordsOf_separation _ _)
    hpassages fun p hp => p.refuses_directive (hlooks _ (isFirstOfSubject_first hp))
  rw [flatMap_passagesOf] at hinjective hread
  rw [write_eq]
  exact ⟨f, hinjective.mono fun _ => mem_sortedDistinct.mpr, hread⟩

/-- Where a subject looks like a directive, the text is not read. -/
theorem read_write_error (hkeys : (ns.entries.map Prod.fst).Nodup)
    (hts : ∀ t ∈ ts, t.IsWellFormed) {t : Triple} (hfirst : IsFirstOfSubject ts t)
    (hlooks : looksLikeDirective ns t = true) : ∃ e, read (write ts ns) none = .error e := by
  have hsorted : ∀ t ∈ sortedDistinct ts, t.IsWellFormed := fun t ht =>
    hts t (mem_sortedDistinct.mp ht)
  have hwell : ∀ p ∈ passagesOf (sortedDistinct ts), ∀ t ∈ p.triples, t.IsWellFormed :=
    fun p hp t ht => hts t (mem_of_mem_passagesOf hp ht)
  obtain ⟨p, hp, rfl⟩ := exists_passage_of_isFirstOfSubject hfirst
  -- the reader stops at the first of the passages that look like directives
  have hfound : ((passagesOf (sortedDistinct ts)).find?
      fun q => looksLikeDirective ns q.first).isSome :=
    List.find?_isSome.mpr ⟨p, hp, hlooks⟩
  obtain ⟨q, hq⟩ := Option.isSome_iff_exists.mp hfound
  obtain ⟨hqlooks, before, after, hsplit, hbefore⟩ := List.find?_eq_some_iff_append.mp hq
  rw [write_eq, hsplit]
  rw [hsplit] at hwell
  refine read_documentText_error _ _ (usedEntries_fit hkeys hsorted) (wordsOf_separation _ _) ?_
    (hwell q (List.mem_append_right _ List.mem_cons_self) _ List.mem_cons_self) hqlooks
  intro r hr
  exact ⟨hwell r (List.mem_append_left _ hr), by simpa using hbefore r hr⟩

/-- What is written for some triples comes back. -/
structure ComesBack (ts : List Triple) (ns : Namespaces) : Prop where
  /-- The text is read as the sorted triples, each once, under new names for blank nodes. -/
  read : ∃ f, IsInjectiveOn f ts ∧
    read (write ts ns) none = .ok ((sortedDistinct ts).map (Triple.mapBlank f))
  sorted : (sortedDistinct ts).Pairwise fun t u => Triple.order t u = .lt
  members : ∀ t, t ∈ sortedDistinct ts ↔ t ∈ ts

/-- What is written for well-formed triples comes back exactly if no first triple about a subject
looks like a directive, and a text that does not come back is refused. -/
theorem comesBack_iff (h : ∀ t ∈ ts, t.IsWellFormed) (entries : List (String × String)) :
    (ComesBack ts (Namespaces.empty.addAll entries) ↔
      ∀ t, IsFirstOfSubject ts t →
        looksLikeDirective (Namespaces.empty.addAll entries) t = false) ∧
    (ComesBack ts (Namespaces.empty.addAll entries) ∨
      ∃ e, read (write ts (Namespaces.empty.addAll entries)) none = .error e) := by
  have hempty : (Namespaces.empty.entries.map Prod.fst).Nodup := List.nodup_nil
  have hkeys := Namespaces.nodup_addAll hempty entries
  generalize Namespaces.empty.addAll entries = ns at hkeys ⊢
  have hback : (∀ t, IsFirstOfSubject ts t → looksLikeDirective ns t = false) →
      ComesBack ts ns := fun hlooks =>
    ⟨read_write hkeys h hlooks, pairwise_sortedDistinct ts, fun _ => mem_sortedDistinct⟩
  by_cases hlooks : ∀ t, IsFirstOfSubject ts t → looksLikeDirective ns t = false
  · exact ⟨⟨fun _ => hlooks, hback⟩, Or.inl (hback hlooks)⟩
  · have herror : ∃ e, read (write ts ns) none = .error e := by
      obtain ⟨t, ht⟩ := Classical.not_forall.mp hlooks
      obtain ⟨hfirst, hlooks⟩ := Classical.not_imp.mp ht
      exact read_write_error hkeys h hfirst ((Bool.not_eq_false _).mp hlooks)
    refine ⟨⟨fun hcomes => ?_, fun hfalse => absurd hfalse hlooks⟩, Or.inr herror⟩
    obtain ⟨f, -, hread⟩ := hcomes.read
    obtain ⟨e, herror⟩ := herror
    rw [herror] at hread
    cases hread

/-- Triples about a namespace itself and about a thing in it, with a list of values; one stands
twice. -/
def registry : List Triple :=
  [⟨.iri ⟨"http://example.org/"⟩, ⟨"http://example.org/part"⟩, .iri ⟨"http://example.org/ann"⟩⟩,
    ⟨.iri ⟨"http://example.org/"⟩, Vocabulary.rdfType, .iri ⟨"http://example.org/Registry"⟩⟩,
    ⟨.iri ⟨"http://example.org/ann"⟩, ⟨"http://example.com/knows"⟩, .blank ⟨"bob.1"⟩⟩,
    ⟨.iri ⟨"http://example.org/ann"⟩, ⟨"http://example.com/knows"⟩, .blank ⟨"eve"⟩⟩,
    ⟨.iri ⟨"http://example.org/"⟩, ⟨"http://example.org/part"⟩, .iri ⟨"http://example.org/ann"⟩⟩]

/-- The registry comes back even under the prefix `prefix`: the keyword for the type and an
abbreviated predicate follow the namespace itself, but no bracket does. -/
theorem comesBack_registry : (∀ t ∈ registry, t.IsWellFormed) ∧
    ComesBack registry (Namespaces.empty.addAll [("prefix", "http://example.org/")]) := by
  have hwell : ∀ t ∈ registry, t.IsWellFormed := by
    have hpart : Triple.IsWellFormed ⟨.iri ⟨"http://example.org/"⟩, ⟨"http://example.org/part"⟩,
        .iri ⟨"http://example.org/ann"⟩⟩ := ⟨rfl, rfl, rfl⟩
    have htype : Triple.IsWellFormed ⟨.iri ⟨"http://example.org/"⟩, Vocabulary.rdfType,
        .iri ⟨"http://example.org/Registry"⟩⟩ := ⟨rfl, rfl, rfl⟩
    have hbob : Triple.IsWellFormed ⟨.iri ⟨"http://example.org/ann"⟩, ⟨"http://example.com/knows"⟩,
        .blank ⟨"bob.1"⟩⟩ := ⟨rfl, rfl, rfl⟩
    have heve : Triple.IsWellFormed ⟨.iri ⟨"http://example.org/ann"⟩, ⟨"http://example.com/knows"⟩,
        .blank ⟨"eve"⟩⟩ := ⟨rfl, rfl, rfl⟩
    intro t ht
    simp only [registry, List.mem_cons, List.not_mem_nil, or_false] at ht
    rcases ht with rfl | rfl | rfl | rfl | rfl
    · exact hpart
    · exact htype
    · exact hbob
    · exact heve
    · exact hpart
  refine ⟨hwell, (comesBack_iff hwell _).1.mpr fun t ht => ?_⟩
  have hlooks : ∀ t ∈ registry, looksLikeDirective
      (Namespaces.empty.addAll [("prefix", "http://example.org/")]) t = false := by
    decide
  exact hlooks t ht.1

/-- A statement about a namespace itself, of which the predicate has no abbreviation. -/
def remark : List Triple :=
  [⟨.iri ⟨"http://example.org/"⟩, ⟨"http://example.com/by"⟩, .iri ⟨"http://example.org/ann"⟩⟩]

/-- Under the prefix `prefix` the remark does not come back. -/
theorem not_comesBack_remark : (∀ t ∈ remark, t.IsWellFormed) ∧
    ¬ComesBack remark (Namespaces.empty.addAll [("prefix", "http://example.org/")]) := by
  have hwell : ∀ t ∈ remark, t.IsWellFormed := by
    intro t ht
    obtain rfl := List.mem_singleton.mp ht
    exact ⟨rfl, rfl, rfl⟩
  refine ⟨hwell, fun hback => ?_⟩
  have hkeys : ((Namespaces.empty.addAll [("prefix", "http://example.org/")]).entries.map
      Prod.fst).Nodup := by decide
  obtain ⟨f, -, hread⟩ := hback.read
  have hfirst : IsFirstOfSubject remark ⟨.iri ⟨"http://example.org/"⟩, ⟨"http://example.com/by"⟩,
      .iri ⟨"http://example.org/ann"⟩⟩ := by
    refine ⟨List.mem_cons_self, fun u hu _ => ?_⟩
    obtain rfl := List.mem_singleton.mp hu
    decide
  obtain ⟨e, herror⟩ := read_write_error hkeys hwell hfirst (by decide)
  rw [herror] at hread
  cases hread

end RdfStore.Turtle
