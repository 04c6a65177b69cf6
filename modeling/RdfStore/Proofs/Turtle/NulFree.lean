import RdfStore.Proofs.Text.Joined
import RdfStore.Proofs.Turtle.RoundTrip
import RdfStore.Proofs.Value.TermValues

/-!
# Turtle without NUL

A well-formed term is written without a NUL, as its IRIs, labels and language tags have none and
its text is escaped. Of the registered prefixes only those are declared that abbreviate an IRI of
the triples, so the text has no NUL whatever else is registered.
-/

set_option autoImplicit false

namespace RdfStore

open Text

/-- A well-formed address has no NUL. -/
theorem Iri.IsWellFormed.not_hasNul {i : Iri} (h : i.IsWellFormed) : ¬HasNul i.text :=
  not_hasNul_of_le fun _ hc => Nat.le_of_lt (h.char hc).1

/-- A well-formed blank node has no NUL in its label. -/
theorem BlankNode.IsWellFormed.not_hasNul {b : BlankNode} (h : b.IsWellFormed) :
    ¬HasNul b.label :=
  not_hasNul_of_le fun _ hc => Nat.le_of_lt (Validity.lt_toNat_of_isLabel h.valid hc)

/-- A well-formed term is written without NUL. -/
theorem Term.IsWellFormed.not_hasNul {t : Term} (h : t.IsWellFormed) : ¬HasNul t.written :=
  not_hasNul_of_le fun _ hc => h.le_toNat hc

namespace Turtle

open Syntax

variable {ns : Namespaces} {ts : List Triple}

/-- The name of a prefix has no NUL. -/
theorem not_hasNul_of_isPrefixName {name : String} (h : IsPrefixName name.toList) :
    ¬HasNul name := by
  intro hnul
  rw [HasNul] at hnul
  rcases h with hname | ⟨c, cs, hname, hc, hcs⟩
  · rw [hname] at hnul
    exact absurd hnul List.not_mem_nil
  · rw [hname] at hnul
    rcases List.mem_cons.mp hnul with rfl | hnul
    · exact absurd hc (by decide)
    · exact absurd (hcs _ hnul) (by decide)

/-- A well-formed address is written without NUL, abbreviated or not. -/
theorem not_hasNul_writeIri {i : Iri} (h : i.IsWellFormed) : ¬HasNul (writeIri ns i) := by
  unfold writeIri
  split
  · rename_i name localName habbreviation
    obtain ⟨hwritable, start, -, htext, -⟩ := abbreviation?_eq_some habbreviation
    have hname := not_hasNul_of_isPrefixName (isPrefixName_of_writable hwritable)
    have hrest := h.not_hasNul
    rw [htext, hasNul_append, not_or] at hrest
    exact not_hasNul_append (not_hasNul_append hname (by decide)) hrest.2
  · exact Term.IsWellFormed.not_hasNul (t := .iri i) h

/-- A well-formed term is written without NUL, abbreviated or not. -/
theorem not_hasNul_writeTerm {t : Term} (h : t.IsWellFormed) : ¬HasNul (writeTerm ns t) := by
  cases t with
  | iri i => exact not_hasNul_writeIri h
  | blank b => exact h.not_hasNul
  | literal l =>
    rw [writeTerm]
    split
    · rename_i datatype hkind
      have hdatatype : datatype.IsWellFormed := by
        have hl := Literal.IsWellFormed.datatype h
        rwa [Literal.datatype, hkind] at hl
      have hquoted : ¬HasNul l.quoted := not_hasNul_of_le fun _ => l.le_toNat_of_mem_quoted
      exact not_hasNul_append (not_hasNul_append hquoted (by decide))
        (not_hasNul_writeIri hdatatype)
    · exact h.not_hasNul

/-- A well-formed predicate is written without NUL. -/
theorem not_hasNul_writePredicate {i : Iri} (h : i.IsWellFormed) :
    ¬HasNul (writePredicate ns i) := by
  unfold writePredicate
  split
  · decide
  · exact not_hasNul_writeIri h

/-- The objects of well-formed triples are written without NUL. -/
theorem not_hasNul_writeObjects (h : ∀ t ∈ ts, t.IsWellFormed) : ¬HasNul (writeObjects ns ts) := by
  cases ts with
  | nil => exact (by decide : ¬HasNul "")
  | cons t rest =>
    have hpredicate : ¬HasNul (writePredicate ns t.predicate) :=
      not_hasNul_writePredicate (h t List.mem_cons_self).predicate
    have hobjects : ¬HasNul (String.intercalate ", "
        ((t :: rest).map fun u => writeTerm ns u.object)) := by
      refine not_hasNul_intercalate (by decide) fun s hs => ?_
      obtain ⟨u, hu, rfl⟩ := List.mem_map.mp hs
      exact not_hasNul_writeTerm (h u hu).object
    exact not_hasNul_append (not_hasNul_append hpredicate (by decide)) hobjects

/-- The triples of a group that is split off are triples of the list. -/
theorem mem_of_mem_splitBy {r : Triple → Triple → Bool} {g : List Triple} (hg : g ∈ ts.splitBy r)
    {t : Triple} (ht : t ∈ g) : t ∈ ts := by
  rw [← List.flatten_splitBy r ts]
  exact List.mem_flatten.mpr ⟨g, hg, ht⟩

/-- All that is said about a subject is written without NUL. -/
theorem not_hasNul_writeSubject (h : ∀ t ∈ ts, t.IsWellFormed) : ¬HasNul (writeSubject ns ts) := by
  cases ts with
  | nil => exact (by decide : ¬HasNul "")
  | cons t rest =>
    have hsubject : ¬HasNul (writeTerm ns t.subject.toTerm) :=
      not_hasNul_writeTerm (h t List.mem_cons_self).subject.toTerm
    have hclauses : ¬HasNul (String.intercalate " ;\n    "
        (((t :: rest).splitBy fun a b => a.predicate == b.predicate).map (writeObjects ns))) := by
      refine not_hasNul_intercalate (by decide) fun s hs => ?_
      obtain ⟨g, hg, rfl⟩ := List.mem_map.mp hs
      exact not_hasNul_writeObjects fun u hu => h u (mem_of_mem_splitBy hg hu)
    have hstart := not_hasNul_append hsubject (by decide : ¬HasNul " ")
    exact not_hasNul_append (not_hasNul_append hstart hclauses) (by decide)

/-- The declarations of used prefixes have no NUL, whatever else is registered. -/
theorem not_hasNul_writeDeclarations (hkeys : (ns.entries.map Prod.fst).Nodup)
    (h : ∀ t ∈ ts, t.IsWellFormed) : ¬HasNul (writeDeclarations ns (usedPrefixes ns ts)) := by
  refine not_hasNul_join fun s hs => ?_
  obtain ⟨e, he, rfl⟩ := List.mem_map.mp hs
  obtain ⟨hname, hiri⟩ := usedEntries_fit hkeys h e he
  have hname := not_hasNul_of_isPrefixName hname
  have hiri := Iri.IsWellFormed.not_hasNul hiri
  have hstart := not_hasNul_append (by decide : ¬HasNul "@prefix ") hname
  have hmiddle := not_hasNul_append hstart (by decide : ¬HasNul ": <")
  exact not_hasNul_append (not_hasNul_append hmiddle hiri) (by decide)

/-- The Turtle of well-formed triples has no NUL. -/
theorem not_hasNul_write (hkeys : (ns.entries.map Prod.fst).Nodup)
    (h : ∀ t ∈ ts, t.IsWellFormed) : ¬HasNul (write ts ns) := by
  have hsorted : ∀ t ∈ sortedDistinct ts, t.IsWellFormed := fun t ht =>
    h t (mem_sortedDistinct.mp ht)
  have hdeclarations := not_hasNul_writeDeclarations hkeys hsorted
  have hgap : ∀ used : List String, ¬HasNul (if used.isEmpty then "" else "\n") := by
    intro used
    split <;> decide
  have hsubjects : ¬HasNul (String.join (((sortedDistinct ts).splitBy
      fun a b => a.subject == b.subject).map (writeSubject ns))) := by
    refine not_hasNul_join fun s hs => ?_
    obtain ⟨g, hg, rfl⟩ := List.mem_map.mp hs
    exact not_hasNul_writeSubject fun t ht => hsorted t (mem_of_mem_splitBy hg ht)
  exact not_hasNul_append (not_hasNul_append hdeclarations (hgap _)) hsubjects

end Turtle

end RdfStore
