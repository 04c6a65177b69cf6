import Mathlib.Data.Finset.Card
import RdfStore.Proofs.Store.Refinement
import RdfStore.Proofs.Term.Order
import RdfStore.Proofs.Term.Reading
import RdfStore.Proofs.Turtle.Directive
import RdfStore.Proofs.Turtle.Passages

/-!
# Lines of triples are read back

What is written with a triple on each line is a document without declarations. It is read as
the sorted triples, each once, under new names for their blank nodes. Loading it into an empty
store renames the blank nodes once more, and the store holds the triples under both renamings.
Terms hold no line breaks, so there is one line for each triple.
-/

set_option autoImplicit false

namespace RdfStore.Turtle

open RdfStore.Peg RdfStore.Syntax RdfStore.Text

variable {ts : List Triple}

/-! ## Reading -/

/-- Without prefixes nothing is abbreviated. -/
theorem abbreviation?_empty (i : Iri) : abbreviation? Namespaces.empty i = none := rfl

/-- Without prefixes every abbreviation is covered. -/
theorem covers_empty (scope : IriScope) (t : Triple) :
    Covers scope Namespaces.empty false t where
  subject _ _ _ _ h := nomatch h
  predicate := Or.inr fun _ _ h => nomatch h
  object _ _ _ _ h := nomatch h

/-- Lines of triples are a document of lines. -/
theorem writeLines_eq (ts : List Triple) : writeLines ts = String.ofList
    (documentText Namespaces.empty false [] [] ((sortedDistinct ts).map linePassage)) := by
  rw [← String.toList_inj, String.toList_ofList, writeLines, String.toList_join, documentText,
    List.flatMap_map, List.flatMap_map]
  exact List.flatMap_congr fun t _ => (text_linePassage t).symm

/-- Lines of triples are read as the sorted triples, each once, with their blank nodes renamed. -/
theorem read_writeLines (h : ∀ t ∈ ts, t.IsWellFormed) :
    ∃ f, IsInjectiveOn f ts ∧
      read (writeLines ts) none = .ok ((sortedDistinct ts).map (Triple.mapBlank f)) := by
  have hwell : ∀ p ∈ (sortedDistinct ts).map linePassage, ∀ t ∈ p.triples, t.IsWellFormed ∧
      Covers (declareAll (IriScope.ofBase none) []) Namespaces.empty false t := by
    intro p hp t ht
    obtain ⟨u, hu, rfl⟩ := List.mem_map.mp hp
    rw [triples_linePassage, List.mem_singleton] at ht
    subst ht
    exact ⟨h t (mem_sortedDistinct.mp hu), covers_empty _ t⟩
  have hdirective : ∀ p ∈ (sortedDistinct ts).map linePassage, ∀ rest,
      Refuses grammar .words Symbol.directive ((p.block Namespaces.empty false).text ++ rest) := by
    intro p _ rest
    rw [Passage.block, Block.text, List.append_assoc]
    refine refuses_directive_term fun i _ _ h => ?_
    cases (abbreviation?_empty i).symm.trans h
  have htriples : ((sortedDistinct ts).map linePassage).flatMap Passage.triples =
      sortedDistinct ts := by
    rw [List.flatMap_map]
    exact List.flatMap_singleton' _
  obtain ⟨f, hinjective, hread⟩ := read_documentText [] []
    (fun _ he => absurd he List.not_mem_nil) (fun _ => rfl) hwell hdirective
  rw [htriples] at hinjective hread
  rw [writeLines_eq]
  exact ⟨f, hinjective.mono fun _ => mem_sortedDistinct.mpr, hread⟩

/-! ## Line breaks -/

/-- No line break stands in a well-formed term. -/
theorem newline_notMem_term {t : Term} (h : t.IsWellFormed) : '\n' ∉ t.written.toList := fun hmem =>
  absurd (h.le_toNat hmem) (by decide)

/-- The line of a well-formed triple has one line break. -/
theorem count_newline_line {t : Triple} (h : t.IsWellFormed) :
    (t.written ++ "\n").toList.count '\n' = 1 := by
  have hsubject := newline_notMem_term h.subject.toTerm
  have hpredicate : '\n' ∉ t.predicate.written.toList :=
    newline_notMem_term (t := .iri t.predicate) h.predicate
  have hline : '\n' ∉ t.written.toList := by
    simp [Triple.written, hsubject, hpredicate, newline_notMem_term h.object]
  rw [String.toList_append, List.count_append, List.count_eq_zero.mpr hline]
  rfl

/-- There is one line break for each of the different triples. -/
theorem count_newline_writeLines (h : ∀ t ∈ ts, t.IsWellFormed) :
    (writeLines ts).toList.count '\n' = (sortedDistinct ts).length := by
  have hall : ∀ t ∈ sortedDistinct ts, t.IsWellFormed := fun t ht =>
    h t (mem_sortedDistinct.mp ht)
  rw [writeLines, String.toList_join, List.flatMap_map]
  generalize sortedDistinct ts = sorted at hall ⊢
  induction sorted with
  | nil => rfl
  | cons t rest ih =>
    rw [List.flatMap_cons, List.count_append, count_newline_line (hall t List.mem_cons_self),
      ih fun u hu => hall u (List.mem_cons_of_mem t hu), List.length_cons, Nat.add_comm]

/-! ## Loading -/

/-- A batch is stored in an empty store under injective names, and all its triples are new. -/
theorem insertScoped_empty (clock : Clock) (batch : List Triple) :
    ∃ g, IsInjectiveOn g batch ∧
      ((Store.empty clock).insertScoped batch).1 =
        (batch.toFinset.image (Triple.mapBlank g)).card ∧
      ((Store.empty clock).insertScoped batch).2.Represents
        (batch.toFinset.image (Triple.mapBlank g)) := by
  have hs := Store.isCoherent_empty clock
  have hempty : (Store.empty clock).HasMembers ∅ := by
    intro t
    rw [Store.contains_empty, iff_false_right (Finset.notMem_empty t)]
    exact Bool.false_ne_true
  obtain ⟨set, hstep, hmembers⟩ := Store.insertScoped_step hs hempty batch
  have hrepresents := hmembers.represents (Store.isCoherent_insertScoped hs batch)
  generalize hadded : ((Store.empty clock).insertScoped batch).1 = added at hstep
  cases hstep with
  | insertScoped _ g hscoped =>
    have himage : (batch.map (Triple.mapBlank g)).toFinset =
        batch.toFinset.image (Triple.mapBlank g) := by
      ext u
      simp
    rw [Finset.empty_union, himage] at hrepresents
    rw [Finset.sdiff_empty, himage]
    refine ⟨g, ?_, rfl, hrepresents⟩
    rintro a b ⟨t, ht, ha⟩ ⟨u, hu, hb⟩ heq
    exact hscoped.injective t ht u hu a b ha hb heq

/-- Lines of triples are loaded into an empty store as the triples, each once, with their blank
nodes renamed. -/
theorem load_writeLines (h : ∀ t ∈ ts, t.IsWellFormed) (clock : Clock) :
    ∃ s f, IsInjectiveOn f ts ∧
      (Store.empty clock).load (writeLines ts) none = .ok (ts.toFinset.card, s) ∧
      s.Represents (ts.toFinset.image (Triple.mapBlank f)) := by
  obtain ⟨f, hf, hread⟩ := read_writeLines h
  obtain ⟨g, hg, hadded, hrepresents⟩ :=
    insertScoped_empty clock ((sortedDistinct ts).map (Triple.mapBlank f))
  have himage : ((sortedDistinct ts).map (Triple.mapBlank f)).toFinset.image (Triple.mapBlank g) =
      ts.toFinset.image (Triple.mapBlank (g ∘ f)) := by
    ext u
    simp [mem_sortedDistinct, Triple.mapBlank_mapBlank]
  have hinjective : IsInjectiveOn (g ∘ f) ts := by
    refine hf.comp (hg.mono fun v hv => ?_)
    obtain ⟨w, hw, rfl⟩ := List.mem_map.mp hv
    exact List.mem_map_of_mem (mem_sortedDistinct.mpr hw)
  have hcard : (ts.toFinset.image (Triple.mapBlank (g ∘ f))).card = ts.toFinset.card := by
    refine Finset.card_image_of_injOn fun t ht u hu heq => ?_
    exact hinjective.eq_of_mapBlank_eq (List.mem_toFinset.mp ht) (List.mem_toFinset.mp hu) heq
  rw [himage, hcard] at hadded
  rw [himage] at hrepresents
  refine ⟨_, g ∘ f, hinjective, ?_, hrepresents⟩
  rw [Store.load, hread]
  exact congrArg Except.ok (Prod.ext hadded rfl)

/-- What is written on lines for some triples comes back. -/
structure LinesComeBack (ts : List Triple) : Prop where
  /-- The lines are read as the sorted triples, each once, under new names for blank nodes. -/
  read : ∃ f, IsInjectiveOn f ts ∧
    read (writeLines ts) none = .ok ((sortedDistinct ts).map (Triple.mapBlank f))
  sorted : (sortedDistinct ts).Pairwise fun t u => Triple.order t u = .lt
  members : ∀ t, t ∈ sortedDistinct ts ↔ t ∈ ts
  /-- There is one line break for each of the different triples. -/
  breaks : (writeLines ts).toList.count '\n' = ts.toFinset.card
  /-- An empty store that loads the lines counts the different triples, and holds them under new
  names for their blank nodes. -/
  loaded : ∀ clock, ∃ s f, IsInjectiveOn f ts ∧
    (Store.empty clock).load (writeLines ts) none = .ok (ts.toFinset.card, s) ∧
    s.Represents (ts.toFinset.image (Triple.mapBlank f))

/-- What is written on lines for well-formed triples comes back. -/
theorem linesComeBack (h : ∀ t ∈ ts, t.IsWellFormed) : LinesComeBack ts where
  read := read_writeLines h
  sorted := pairwise_sortedDistinct ts
  members _ := mem_sortedDistinct
  breaks := by
    have hsame : (sortedDistinct ts).toFinset = ts.toFinset := by
      ext t
      rw [List.mem_toFinset, List.mem_toFinset, mem_sortedDistinct]
    rw [count_newline_writeLines h, ← hsame, List.toFinset_card_of_nodup (nodup_sortedDistinct ts)]
  loaded := load_writeLines h

/-- Triples with escapes, a language, a datatype and a blank node in both places; one stands
twice. -/
def greetings : List Triple :=
  [⟨.blank ⟨"ann.1"⟩, ⟨"http://example.org/says"⟩,
      .literal ⟨"say \"hi\"\n", .tagged "en-gb"⟩⟩,
    ⟨.iri ⟨"http://example.org/bob"⟩, ⟨"http://example.org/knows"⟩, .blank ⟨"ann.1"⟩⟩,
    ⟨.blank ⟨"ann.1"⟩, ⟨"http://example.org/age"⟩,
      .literal ⟨"42", .typed Vocabulary.xsdInteger⟩⟩,
    ⟨.iri ⟨"http://example.org/bob"⟩, ⟨"http://example.org/knows"⟩, .blank ⟨"ann.1"⟩⟩]

/-- The greetings are well-formed, so they come back. -/
theorem linesComeBack_greetings :
    (∀ t ∈ greetings, t.IsWellFormed) ∧ LinesComeBack greetings := by
  have hwell : ∀ t ∈ greetings, t.IsWellFormed := by
    have htagged : Literal.tagged "say \"hi\"\n" "en-GB" =
        .ok ⟨"say \"hi\"\n", .tagged "en-gb"⟩ := rfl
    have hinteger : Vocabulary.xsdInteger.IsWellFormed := rfl
    have htyped : Literal.checkedTyped "42" Vocabulary.xsdInteger =
        .ok ⟨"42", .typed Vocabulary.xsdInteger⟩ := rfl
    have hsays : Triple.IsWellFormed ⟨.blank ⟨"ann.1"⟩, ⟨"http://example.org/says"⟩,
        .literal ⟨"say \"hi\"\n", .tagged "en-gb"⟩⟩ := ⟨rfl, rfl, .tagged htagged⟩
    have hknows : Triple.IsWellFormed ⟨.iri ⟨"http://example.org/bob"⟩,
        ⟨"http://example.org/knows"⟩, .blank ⟨"ann.1"⟩⟩ := ⟨rfl, rfl, rfl⟩
    have hage : Triple.IsWellFormed ⟨.blank ⟨"ann.1"⟩, ⟨"http://example.org/age"⟩,
        .literal ⟨"42", .typed Vocabulary.xsdInteger⟩⟩ := ⟨rfl, rfl, .typed hinteger htyped⟩
    intro t ht
    simp only [greetings, List.mem_cons, List.not_mem_nil, or_false] at ht
    rcases ht with rfl | rfl | rfl | rfl
    · exact hsays
    · exact hknows
    · exact hage
    · exact hknows
  exact ⟨hwell, linesComeBack hwell⟩

end RdfStore.Turtle
