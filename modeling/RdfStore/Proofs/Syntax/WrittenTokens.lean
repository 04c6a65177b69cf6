import RdfStore.Proofs.Syntax.Tokens
import RdfStore.Proofs.Term.Reading
import RdfStore.Syntax.Token

/-!
# What the nodes of written tokens stand for

In a grammar with the shared tokens, the node of a written IRI stands for the IRI, and the node of
a written literal for the literal, whatever names the grammar gives to its rules.
-/

set_option autoImplicit false

namespace RdfStore.Syntax

open RdfStore.Peg RdfStore.Text

/-- The characters of a well-formed IRI stand between angle brackets. -/
theorem isIriChar_of_wellFormed {i : Iri} (h : i.IsWellFormed) :
    ∀ c ∈ i.text.toList, isIriChar c = true :=
  List.all_eq_true.mp h.valid.1

/-- The text between angle brackets stands for the IRI. -/
theorem reference_eq (scope : IriScope) {i : Iri} (hi : i.IsWellFormed) :
    scope.reference i.text.toList = .ok i := by
  have hslash : ∀ c ∈ i.text.toList, c ≠ '\\' := by
    rintro c hc rfl
    exact absurd (isIriChar_of_wellFormed hi _ hc) (by decide)
  have hdecode : decodeIri i.text.toList = .ok i.text := by
    rw [decodeIri, Escape.decode_self .iri hslash]
    dsimp only
    rw [String.ofList_toList]
  unfold IriScope.reference
  rw [hdecode]
  show (if Validity.isAbsolute i.text.toList then _ else _) = _
  rw [if_pos hi.valid.2, hi]
  rfl

namespace HasTokens

variable {R : Type} {g : Grammar R} {embed : Terminal → R} {terminal? : R → Option Terminal}
  {scope : IriScope} {tree : ParseTree R}

/-- The node of a token keeps its text. -/
theorem text_eq (hg : HasTokens g embed) {t : Terminal} {text written : List Char}
    (h : g.outlineText (embed t) written = text) : written = text := by
  have hwords : (g.production (embed t)).manner ≠ .words := by
    rw [hg.production]
    exact manner_ne_words embed t
  rwa [Grammar.outlineText, if_neg hwords] at h

/-- The node of a written IRI stands for the IRI. -/
theorem iri_eq (hg : HasTokens g embed) (hterminal : ∀ t, terminal? (embed t) = some t) {i : Iri}
    (hi : i.IsWellFormed) (htree : g.outline tree = iriOutline embed i.text.toList) :
    scope.iri terminal? tree = .ok i := by
  obtain ⟨start, text, trees, rfl, hchildren, -⟩ := Grammar.eq_of_outline htree
  obtain ⟨content, rfl, hcontent⟩ := Grammar.eq_singleton_of_outlines hchildren
  obtain ⟨start', text', trees', rfl, -, htext⟩ := Grammar.eq_of_outline hcontent
  obtain rfl := hg.text_eq htext
  rw [IriScope.iri, ParseTree.rule, hterminal]
  show blame _ (scope.reference i.text.toList) = _
  rw [reference_eq scope hi]
  rfl

/-- The node of a written string stands for its value. -/
theorem decodeLiteral_eq (hg : HasTokens g embed) {value : String}
    (htree : g.outline tree = stringOutline embed (Escape.encode value.toList)) :
    decodeLiteral (firstText tree.children) = .ok value := by
  obtain ⟨start, text, trees, rfl, hchildren, -⟩ := Grammar.eq_of_outline htree
  obtain ⟨content, rfl, hcontent⟩ := Grammar.eq_singleton_of_outlines hchildren
  obtain ⟨start', text', trees', rfl, -, htext⟩ := Grammar.eq_of_outline hcontent
  obtain rfl := hg.text_eq htext
  exact decodeLiteral_encode value

end HasTokens

/-- The node of a written literal under a rule of words, given those of IRIs. -/
def literalOutline {R : Type} (embed : Terminal → R) (literal : R) (iriNode : Iri → Outline R)
    (l : Literal) : Outline R :=
  .node literal [] (stringOutline embed (Escape.encode l.value.toList) ::
    match l.kind with
    | .plain => []
    | .tagged tag => [tagOutline embed tag.toList]
    | .typed datatype => [iriNode datatype])

/-- The node of a written literal stands for the literal if the node of its datatype stands for the
datatype. -/
theorem HasTokens.literal_eq {R : Type} {g : Grammar R} {embed : Terminal → R}
    {terminal? : R → Option Terminal} {scope : IriScope} {tree : ParseTree R}
    (hg : HasTokens g embed) (hterminal : ∀ t, terminal? (embed t) = some t) {literal : R}
    {iriNode : Iri → Outline R} {l : Literal} (hl : l.IsWellFormed)
    (hdatatype : ∀ datatype, l.kind = .typed datatype → datatype.IsWellFormed →
      ∀ tree, g.outline tree = iriNode datatype → scope.iri terminal? tree = .ok datatype)
    (htree : g.outline tree = literalOutline embed literal iriNode l) :
    tree.rule = literal ∧ scope.literal terminal? tree = .ok l := by
  obtain ⟨value, kind⟩ := l
  obtain ⟨start, text, trees, rfl, hchildren, -⟩ := Grammar.eq_of_outline htree
  obtain ⟨string, rest, rfl, hstring, hrest⟩ := Grammar.eq_cons_of_outlines hchildren
  refine ⟨rfl, ?_⟩
  rw [IriScope.literal, ParseTree.children]
  dsimp only
  rw [hg.decodeLiteral_eq hstring]
  rcases hl.kind_cases with hkind | ⟨tag, hkind, -, hagain⟩ | ⟨datatype, hkind, hwell, hagain⟩
  · cases hkind
    rw [Grammar.eq_nil_of_outlines hrest]
    rfl
  · cases hkind
    obtain ⟨suffix, rfl, hsuffix⟩ := Grammar.eq_singleton_of_outlines hrest
    obtain ⟨start', text', trees', rfl, -, htext⟩ := Grammar.eq_of_outline hsuffix
    obtain rfl := hg.text_eq htext
    simp only [ParseTree.rule, hterminal]
    show blame _ (IriScope.lift (Literal.tagged value (String.ofList tag.toList))) = _
    rw [String.ofList_toList, hagain]
    rfl
  · cases hkind
    obtain ⟨suffix, rfl, hsuffix⟩ := Grammar.eq_singleton_of_outlines hrest
    have hiri := hdatatype datatype rfl hwell suffix hsuffix
    have htag : terminal? suffix.rule ≠ some .languageTag := by
      intro h
      rw [IriScope.iri, h] at hiri
      cases hiri
    simp only [hiri]
    show blame _ (IriScope.lift (Literal.checkedTyped value datatype)) = _
    rw [hagain]
    rfl

end RdfStore.Syntax
