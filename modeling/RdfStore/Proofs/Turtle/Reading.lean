import RdfStore.Proofs.Turtle.Document
import RdfStore.Proofs.Turtle.Naming

/-!
# Written terms that are read back

The reader takes the node of a written term for the term, with the blank node renamed that its
label has in the document. An abbreviated IRI is read back where its prefix is defined as the
start of the IRI. From terms this goes on to the properties of a subject, to blocks, and to the
statements of a document.
-/

set_option autoImplicit false

namespace RdfStore.Turtle

open RdfStore.Peg RdfStore.Syntax RdfStore.Text

/-! ## IRIs -/

/-- The prefix that abbreviates an IRI, if any, stands in the scope for the start of the IRI. -/
def Expands (scope : IriScope) (ns : Namespaces) (i : Iri) : Prop :=
  ∀ name localName, abbreviation? ns i = some (name, localName) →
    ∃ start, scope.prefixes.lookup name = some start ∧ start ++ localName = i.text

/-- Where no character is protected, all stay. -/
theorem unprotect_self {cs : List Char} (h : '\\' ∉ cs) : IriScope.unprotect cs = cs := by
  induction cs with
  | nil => rfl
  | cons c cs ih =>
    rw [List.mem_cons, not_or] at h
    rw [IriScope.unprotect, ih h.2]
    · exact fun hc _ => h.1 hc.symm
    · exact fun _ _ hc _ => h.1 hc.symm

/-- The characters of a simple local name are characters of names. -/
theorem isNameChar_of_mem_local {cs : List Char} (h : isSimpleLocalName cs = true) :
    ∀ c ∈ cs, isNameChar c = true := by
  rcases isLocalName_of_simple h with rfl | ⟨c, cs, rfl, hc, hcs⟩
  · exact fun _ hc => absurd hc List.not_mem_nil
  · intro d hd
    rcases List.mem_cons.mp hd with rfl | hd
    · simp [isNameChar, hc]
    · exact hcs d hd

/-- A prefixed name stands for the IRI that it abbreviates. -/
theorem prefixedName_eq {scope : IriScope} {ns : Namespaces} {i : Iri} {name localName : String}
    (hi : i.IsWellFormed) (habbreviation : abbreviation? ns i = some (name, localName))
    (hexpands : Expands scope ns i) :
    scope.prefixedName (name.toList ++ ':' :: localName.toList) = .ok i := by
  obtain ⟨hwritable, -, -, -, hsimple⟩ := abbreviation?_eq_some habbreviation
  obtain ⟨start, hlookup, htext⟩ := hexpands name localName habbreviation
  have hcolon : ':' ∉ name.toList := fun hmem =>
    absurd (isNameChar_of_mem_prefixName (isPrefixName_of_writable hwritable) _ hmem) (by decide)
  have hslash : '\\' ∉ localName.toList := fun hmem =>
    absurd (isNameChar_of_mem_local hsimple _ hmem) (by decide)
  unfold IriScope.prefixedName
  rw [splitAtColon_append hcolon]
  dsimp only [Option.getD_some]
  rw [String.ofList_toList, hlookup]
  dsimp only
  rw [unprotect_self hslash, String.ofList_toList, htext, hi]
  rfl

/-- The grammar names its tokens as the reader does. -/
theorem terminal?_terminal (t : Terminal) : Symbol.terminal? (.terminal t) = some t := rfl

/-- The node of a written IRI stands for the IRI. -/
theorem iri_eq {scope : IriScope} {ns : Namespaces} {i : Iri} (hi : i.IsWellFormed)
    (hexpands : Expands scope ns i) {tree : Node}
    (htree : grammar.outline tree = (iriPart ns i).node) :
    scope.iri Symbol.terminal? tree = .ok i ∧
      (tree.rule = .terminal .iriRef ∨ tree.rule = .terminal .prefixedName ∨
        tree.rule = .terminal .prefixedSpace) := by
  unfold iriPart at htree
  split at htree
  · rename_i name localName habbreviation
    have hname := prefixedName_eq hi habbreviation hexpands
    unfold prefixedOutline at htree
    split at htree
    · rename_i hlocal
      obtain ⟨start, text, trees, rfl, -, htext⟩ := Grammar.eq_of_outline htree
      obtain rfl := hasTokens.text_eq htext
      rw [hlocal] at hname
      refine ⟨?_, Or.inr (Or.inr rfl)⟩
      show blame _ (scope.prefixedName (name.toList ++ [':'])) = _
      rw [hname]
      rfl
    · obtain ⟨start, text, trees, rfl, -, htext⟩ := Grammar.eq_of_outline htree
      obtain rfl := hasTokens.text_eq htext
      refine ⟨?_, Or.inr (Or.inl rfl)⟩
      show blame _ (scope.prefixedName (name.toList ++ ':' :: localName.toList)) = _
      rw [hname]
      rfl
  · have hiri : scope.iri Symbol.terminal? tree = .ok i :=
      hasTokens.iri_eq terminal?_terminal hi htree
    obtain ⟨_, _, _, rfl, -, -⟩ := Grammar.eq_of_outline htree
    exact ⟨hiri, Or.inl rfl⟩

/-! ## Terms -/

/-- The IRIs of a term that can be abbreviated. -/
def termIris : Term → List Iri
  | .iri node => [node]
  | .literal ⟨_, .typed datatype⟩ => [datatype]
  | _ => []

/-- The node of a written literal stands for the literal. -/
theorem literal_eq {scope : IriScope} {ns : Namespaces} {l : Literal} (hl : l.IsWellFormed)
    (hexpands : ∀ i ∈ termIris (.literal l), Expands scope ns i) {tree : Node}
    (htree : grammar.outline tree = (literalPart ns l).node) :
    tree.rule = .literal ∧ scope.literal Symbol.terminal? tree = .ok l := by
  have hnode : (literalPart ns l).node =
      literalOutline .terminal .literal (fun i => (iriPart ns i).node) l := by
    obtain ⟨_, kind⟩ := l
    cases kind <;> rfl
  rw [hnode] at htree
  refine hasTokens.literal_eq terminal?_terminal hl (fun datatype hkind hwell suffix h => ?_) htree
  obtain ⟨value, kind⟩ := l
  cases hkind
  exact (iri_eq hwell (hexpands datatype List.mem_cons_self) h).1

/-- The reader takes a node for a term, with its blank node renamed. -/
def Means (scope : IriScope) (node : Outline Symbol) (t : Term) : Prop :=
  ∀ tree, grammar.outline tree = node → ∀ s : ReaderState, s.IsNamed → s.scope = scope →
    ∃ s', (readTerm tree).run s = .ok (t.mapBlank s'.name, s') ∧ Stating s s' [] ∧
      ∀ b, t = .blank b → s'.Knows b

/-- The reader asks the scope for an IRI. -/
theorem run_readIri {s : ReaderState} {tree : Node} {i : Iri}
    (h : s.scope.iri Symbol.terminal? tree = .ok i) : (readIri tree).run s = .ok (i, s) := by
  unfold readIri
  rw [StateT.run_bind, StateT.run_get, pure_bind]
  dsimp only
  rw [h]
  rfl

/-- The reader asks the scope for a literal. -/
theorem run_readLiteral {s : ReaderState} {tree : Node} {l : Literal}
    (h : s.scope.literal Symbol.terminal? tree = .ok l) :
    (readLiteral tree).run s = .ok (l, s) := by
  unfold readLiteral
  rw [StateT.run_bind, StateT.run_get, pure_bind]
  dsimp only
  rw [h]
  rfl

/-- The reader takes the node of a written term for the term. -/
theorem means_termPart {scope : IriScope} {ns : Namespaces} {t : Term} (ht : t.IsWellFormed)
    (hexpands : ∀ i ∈ termIris t, Expands scope ns i) : Means scope (termPart ns t).node t := by
  rintro tree htree s hs rfl
  cases t with
  | iri i =>
    obtain ⟨hiri, hrule⟩ := iri_eq ht (hexpands i List.mem_cons_self) htree
    refine ⟨s, ?_, Stating.refl hs, fun _ hb => nomatch hb⟩
    obtain ⟨rule, start, text, trees⟩ := tree
    have hread : readTerm (.node rule start text trees) =
        Term.iri <$> readIri (.node rule start text trees) := by
      rcases hrule with h | h | h <;>
      · cases h
        rfl
    rw [hread]
    exact run_map (run_readIri hiri)
  | blank b =>
    obtain ⟨start, text, trees, rfl, -, htext⟩ := Grammar.eq_of_outline htree
    obtain rfl := hasTokens.text_eq htext
    obtain ⟨s', hrun, hstating, hknows⟩ := run_labelledBlank hs b
    refine ⟨s', ?_, hstating, ?_⟩
    · have hread : readTerm (.node (.terminal .blankNodeLabel) start
          ('_' :: ':' :: b.label.toList) trees) =
          Term.blank <$> labelledBlank (String.ofList b.label.toList) := rfl
      rw [hread, String.ofList_toList]
      exact run_map hrun
    · rintro _ ⟨⟩
      exact hknows
  | literal l =>
    obtain ⟨hrule, hliteral⟩ := literal_eq ht hexpands htree
    refine ⟨s, ?_, Stating.refl hs, fun _ hb => nomatch hb⟩
    obtain ⟨rule, start, text, trees⟩ := tree
    cases hrule
    exact run_map (run_readLiteral hliteral)

end RdfStore.Turtle
