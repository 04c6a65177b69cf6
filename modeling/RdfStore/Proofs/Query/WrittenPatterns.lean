import RdfStore.Proofs.Query.AskText
import RdfStore.Proofs.Term.Order
import RdfStore.Proofs.Turtle.Reading
import RdfStore.Proofs.Turtle.Passages

/-!
# Written triples are patterns

What is written with a triple on each line is, between braces, the content of a group: each line
is a statement with one verb and one object. A query reads it as a pattern for every triple, in
which blank nodes are variables and everything else stands for itself.
-/

set_option autoImplicit false

namespace RdfStore.Query

open RdfStore.Peg RdfStore.Syntax RdfStore.Text
open RdfStore.Turtle (wordsOf wordsOf_cons wordsOf_blank quotedText toList_quoted toList_writtenIri)

/-! ## Terms -/

/-- The node of a written term. -/
def termOutline : Term → Outline Symbol
  | .iri i => iriOutline .terminal i.text.toList
  | .blank b => blankOutline .terminal b.label.toList
  | .literal l => literalOutline .terminal .literal (fun i => iriOutline .terminal i.text.toList) l

/-- A well-formed IRI is read before any text. -/
theorem leads_iri {i : Iri} (h : i.IsWellFormed) (rest : List Char) :
    Leads grammar Symbol.iri (i.written.toList ++ rest) [iriOutline .terminal i.text.toList]
      (wordsOf rest) := by
  have hread : Reads grammar .words (.rule (.terminal .iriRef))
      ('<' :: (i.text.toList ++ '>' :: rest)) [iriOutline .terminal i.text.toList] rest :=
    reads_iriRef hasTokens (isIriChar_of_wellFormed h) rest
  rw [toList_writtenIri, List.cons_append, List.append_assoc, List.singleton_append]
  exact (hread.leads rfl).choice_left

/-- A string is read before a text that does not start with a double quote. -/
theorem leads_string (l : Literal) {c : Char} (hc : c ≠ '"') (rest : List Char) :
    Leads grammar (Terminal.anyString .terminal) (l.quoted.toList ++ c :: rest)
      [stringOutline .terminal (Escape.encode l.value.toList)] (wordsOf (c :: rest)) := by
  have hread : Reads grammar .words (Terminal.anyString .terminal)
      ('"' :: (Escape.encode l.value.toList ++ '"' :: c :: rest))
      [stringOutline .terminal (Escape.encode l.value.toList)] (c :: rest) :=
    reads_anyString hasTokens l.value.toList fun heq => hc (Option.some.inj heq)
  have htext : quotedText l.value ++ c :: rest =
      '"' :: (Escape.encode l.value.toList ++ '"' :: c :: rest) := by
    rw [quotedText, List.cons_append, List.append_assoc, List.singleton_append]
  rw [toList_quoted, htext]
  exact hread.leads rfl

/-- A well-formed literal is read before the end of a line. -/
theorem leads_literal {l : Literal} (h : l.IsWellFormed) (rest : List Char) :
    Leads grammar (.rule .literal) (l.written.toList ++ ' ' :: '.' :: rest)
      [termOutline (.literal l)] ('.' :: rest) := by
  rcases h.kind_cases with hkind | ⟨tag, hkind, htag, -⟩ | ⟨datatype, hkind, hdatatype, -⟩
  · simp only [termOutline, literalOutline, Literal.written, hkind]
    have hsuffix : Refuses grammar .words (.choice (.rule (.terminal .languageTag))
        (.seq (.lit "^^") Symbol.iri)) ('.' :: rest) := refuses_of_head rfl rfl rest
    exact Leads.rule_words rfl
      ((leads_string l (by decide) _).seq (hsuffix.leads_opt (wordsOf_cons rfl rest)))
  · simp only [termOutline, literalOutline, Literal.written, hkind, String.toList_append,
      List.append_assoc]
    have hsuffix : Leads grammar (.rule (.terminal .languageTag))
        ('@' :: (tag.toList ++ ' ' :: '.' :: rest)) [tagOutline .terminal tag.toList]
        ('.' :: rest) :=
      (reads_languageTag hasTokens (by decide) htag (.inr ⟨' ', _, rfl, Or.inl rfl⟩)).leads rfl
    exact Leads.rule_words rfl ((leads_string l (by decide) _).seq hsuffix.choice_left.opt)
  · simp only [termOutline, literalOutline, Literal.written, hkind, String.toList_append,
      List.append_assoc]
    have hcarets : Leads grammar (.lit "^^")
        ('^' :: '^' :: (datatype.written.toList ++ ' ' :: '.' :: rest)) []
        (datatype.written.toList ++ ' ' :: '.' :: rest) := by
      refine (reads_text ['^', '^'] _).leads ?_
      rw [toList_writtenIri]
      exact wordsOf_cons rfl _
    have htag : Refuses grammar .words (.rule (.terminal .languageTag))
        ('^' :: '^' :: (datatype.written.toList ++ ' ' :: '.' :: rest)) := refuses_of_head rfl rfl _
    have hsuffix := hcarets.seq (leads_iri hdatatype (' ' :: '.' :: rest))
    exact Leads.rule_words rfl ((leads_string l (by decide) _).seq (Leads.choice_right htag hsuffix).opt)

/-- A well-formed blank node is read before a blank. -/
theorem leads_blank {b : BlankNode} (h : b.IsWellFormed) (rest : List Char) :
    Leads grammar Symbol.variableOrTerm (b.written.toList ++ ' ' :: rest)
      [blankOutline .terminal b.label.toList] (wordsOf rest) := by
  have hread : Reads grammar .words (.rule (.terminal .blankNodeLabel))
      ('_' :: ':' :: (b.label.toList ++ ' ' :: rest)) [blankOutline .terminal b.label.toList]
      (' ' :: rest) :=
    reads_blankNodeLabel hasTokens (BlankNode.IsWellFormed.valid h) ⟨' ', rest, rfl, Or.inl rfl⟩
  rw [BlankNode.written, String.toList_append, List.append_assoc]
  exact Leads.choice_right (refuses_of_head rfl rfl _)
    (Leads.choice_right (refuses_of_head rfl rfl _) (Leads.choice_right (refuses_of_head rfl rfl _)
      (Leads.choice_right (refuses_of_head rfl rfl _)
        (Leads.choice_right (refuses_of_head rfl rfl _) (hread.leads rfl).choice_left.choice_left))))

/-- A well-formed subject is read before a blank. -/
theorem leads_subject {s : Subject} (h : s.IsWellFormed) (rest : List Char) :
    Leads grammar Symbol.variableOrTerm (s.toTerm.written.toList ++ ' ' :: rest)
      [termOutline s.toTerm] (wordsOf rest) := by
  cases s with
  | iri i =>
    have hvar : Refuses grammar .words (.rule .var) (i.written.toList ++ ' ' :: rest) := by
      rw [toList_writtenIri]
      exact refuses_of_head rfl rfl _
    exact Leads.choice_right hvar (leads_iri h (' ' :: rest)).choice_left
  | blank b => exact leads_blank h rest

/-- A well-formed object is read before the end of a line. -/
theorem leads_object {t : Term} (h : t.IsWellFormed) (rest : List Char) :
    Leads grammar Symbol.graphNode (t.written.toList ++ ' ' :: '.' :: rest) [termOutline t]
      ('.' :: rest) := by
  cases t with
  | iri i => exact (@leads_subject (.iri i) h ('.' :: rest)).choice_left
  | blank b => exact (leads_blank h ('.' :: rest)).choice_left
  | literal l =>
    have hread := leads_literal h rest
    show Leads grammar _ (l.written.toList ++ ' ' :: '.' :: rest) _ _
    obtain ⟨cs, hcs⟩ : ∃ cs, l.written.toList = '"' :: cs := by
      unfold Literal.written Literal.quoted
      split <;> exact ⟨_, by simp; rfl⟩
    rw [hcs] at hread ⊢
    exact (Leads.choice_right (refuses_of_head rfl rfl _)
      (Leads.choice_right (refuses_of_head rfl rfl _) hread.choice_left)).choice_left

/-! ## Lines -/

/-- The node of the line of a triple. -/
def lineOutline (t : Triple) : Outline Symbol :=
  statementOutline (termOutline t.subject.toTerm) (pathOutline t.predicate.text.toList [])
    (termOutline t.object)

/-- The lines of triples. -/
def linesText (ts : List Triple) : List Char := ts.flatMap fun t => (t.written ++ "\n").toList

/-- A character that a written term starts with. -/
def IsTermStart (c : Char) : Prop := c = '<' ∨ c = '_' ∨ c = '"'

/-- A written term starts like an IRI, a blank node or a string. -/
theorem written_starts (t : Term) : ∃ c cs, t.written.toList = c :: cs ∧ IsTermStart c := by
  cases t with
  | iri i => exact ⟨'<', _, toList_writtenIri i, Or.inl rfl⟩
  | blank b => exact ⟨'_', _, by simp [Term.written, BlankNode.written]; rfl, Or.inr (Or.inl rfl)⟩
  | literal l =>
    refine ⟨'"', ?_⟩
    unfold Term.written Literal.written Literal.quoted
    dsimp only
    split <;> exact ⟨_, by simp; rfl, Or.inr (Or.inr rfl)⟩

/-- A character that a term starts with is no blank. -/
theorem IsTermStart.wordsOf_cons {c : Char} (h : IsTermStart c) (cs : List Char) :
    wordsOf (c :: cs) = c :: cs := by
  rcases h with rfl | rfl | rfl <;> exact Turtle.wordsOf_cons rfl cs

/-- The first of some lines, part by part. -/
theorem linesText_cons (t : Triple) (ts : List Triple) (rest : List Char) :
    linesText (t :: ts) ++ rest = t.subject.toTerm.written.toList ++ ' ' ::
      '<' :: (t.predicate.text.toList ++ '>' :: ' ' ::
        (t.object.written.toList ++ ' ' :: '.' :: '\n' :: (linesText ts ++ rest))) := by
  simp [linesText, Triple.written, toList_writtenIri]

/-- A line starts with its subject, so no blanks come before it. -/
theorem lines_start (t : Triple) (ts : List Triple) (rest : List Char) :
    ∃ c cs, linesText (t :: ts) ++ rest = c :: cs ∧ IsTermStart c := by
  obtain ⟨c, cs, hcs, hc⟩ := written_starts t.subject.toTerm
  rw [linesText_cons, hcs]
  exact ⟨c, _, rfl, hc⟩

/-- The line of a well-formed triple is read up to its dot. -/
theorem leads_line {t : Triple} (h : t.IsWellFormed) (ts : List Triple) (rest : List Char) :
    Leads grammar (.rule .sameSubject) (linesText (t :: ts) ++ rest) [lineOutline t]
      ('.' :: '\n' :: (linesText ts ++ rest)) := by
  rw [linesText_cons]
  generalize linesText ts ++ rest = more
  have hobject := leads_object h.object ('\n' :: more)
  have hsubject := leads_subject h.subject ('<' :: (t.predicate.text.toList ++ '>' :: ' ' ::
    (t.object.written.toList ++ ' ' :: '.' :: '\n' :: more)))
  rw [wordsOf_cons rfl] at hsubject
  refine leads_statement hsubject ?_ hobject nofun nofun
  obtain ⟨c, cs, hcs, hc⟩ := written_starts t.object
  rw [hcs]
  refine leads_path (isIriChar_of_wellFormed h.predicate) ?_ ?_ ?_
  · rw [wordsOf_blank rfl, List.cons_append, hc.wordsOf_cons]
    rcases hc with rfl | rfl | rfl <;>
      exact (refuses_of_head rfl rfl _).leads_opt (wordsOf_cons rfl _)
  all_goals rcases hc with rfl | rfl | rfl <;> exact nofun

/-- After a line the others are read up to the closing brace. -/
theorem chain_lines {ts : List Triple} (h : ∀ t ∈ ts, t.IsWellFormed) :
    Chain grammar (.seq (.one '.') (.opt (.rule .sameSubject)))
      ('.' :: '\n' :: (linesText ts ++ [' ', '\x7d'])) (ts.map lineOutline) ['\x7d'] := by
  induction ts with
  | nil =>
    have hlast : Refuses grammar .words (.rule .sameSubject) ['\x7d'] := refuses_of_head rfl rfl []
    have hdot : Leads grammar (.one '.') ['.', '\n', ' ', '\x7d'] [] ['\x7d'] :=
      (reads_one '.' _).leads rfl
    have hstop : Chain grammar (.seq (.one '.') (.opt (.rule .sameSubject))) ['\x7d'] []
        ['\x7d'] := (refuses_of_head rfl rfl []).chain
    exact (hdot.seq (hlast.leads_opt rfl)).chain hstop
  | cons t ts ih =>
    have hmore := ih fun u hu => h u (List.mem_cons_of_mem t hu)
    have hline := leads_line (h t List.mem_cons_self) ts [' ', '\x7d']
    obtain ⟨c, cs, hcs, hc⟩ := lines_start t ts [' ', '\x7d']
    rw [hcs] at hline ⊢
    have hdot : Leads grammar (.one '.') ('.' :: '\n' :: c :: cs) [] (c :: cs) :=
      (reads_one '.' _).leads ((wordsOf_blank rfl _).trans (hc.wordsOf_cons cs))
    exact (hdot.seq hline.opt).chain hmore

/-- No form of a query starts like lines and the brace after them. -/
theorem refuses_selectClause (ts : List Triple) :
    Refuses grammar .words (.rule .selectClause) (wordsOf (linesText ts ++ [' ', '\x7d'])) := by
  cases ts with
  | nil => exact refuses_of_head rfl rfl []
  | cons t ts =>
    obtain ⟨c, cs, hcs, hc⟩ := lines_start t ts [' ', '\x7d']
    rw [hcs, hc.wordsOf_cons]
    rcases hc with rfl | rfl | rfl <;> exact refuses_of_head rfl rfl cs

/-- The nodes of lines: a block, or nothing if there are none. -/
def blockOutlines : List Triple → List (Outline Symbol)
  | [] => []
  | t :: ts => [.node .triplesBlock [] ((t :: ts).map lineOutline)]

/-- Lines are read as the content of a group. -/
theorem leads_content {ts : List Triple} (h : ∀ t ∈ ts, t.IsWellFormed) :
    Leads grammar (.rule .groupContent) (wordsOf (linesText ts ++ [' ', '\x7d']))
      [.node .groupContent [] (blockOutlines ts)] ['\x7d'] := by
  have hend : Leads grammar (.star (.seqs [Symbol.patternNotTriples, .opt (.one '.'),
      .opt (.rule .triplesBlock)])) ['\x7d'] [] ['\x7d'] :=
    (refuses_of_head rfl rfl []).chain.star rfl
  cases ts with
  | nil =>
    have hblock : Refuses grammar .words (.rule .triplesBlock) ['\x7d'] := refuses_of_head rfl rfl []
    exact Leads.rule_words rfl ((hblock.leads_opt rfl).seq hend)
  | cons t ts =>
    have hline := leads_line (h t List.mem_cons_self) ts [' ', '\x7d']
    have hmore := (chain_lines fun u hu => h u (List.mem_cons_of_mem t hu)).star (wordsOf_cons rfl _)
    have hblock := Leads.rule_words (r := Symbol.triplesBlock) rfl (hline.seq hmore)
    obtain ⟨c, cs, hcs, hc⟩ := lines_start t ts [' ', '\x7d']
    rw [hcs] at hblock ⊢
    rw [hc.wordsOf_cons]
    exact Leads.rule_words rfl (hblock.opt.seq hend)

/-! ## Patterns -/

/-- A blank node is a hidden variable, and any other term stands for itself. -/
def placeOf : Term → Place
  | .blank b => .var ("_:" ++ b.label)
  | t => .term t

/-- The pattern of a triple. -/
def patternOf (t : Triple) : Pattern :=
  ⟨placeOf t.subject.toTerm, .term (.iri t.predicate), placeOf t.object⟩

section Reading

variable {scope : IriScope} {tree : Node}

/-- The walk makes of the node of a written term the place that the term has in a pattern. -/
theorem readPlace_eq {t : Term} (h : t.IsWellFormed)
    (htree : grammar.outline tree = termOutline t) :
    readPlace scope false tree = pure (placeOf t, []) := by
  cases t with
  | iri i =>
    have hiri : scope.iri Symbol.terminal? tree = .ok i :=
      hasTokens.iri_eq terminal?_terminal h htree
    obtain ⟨start, text, trees, rfl, -, -⟩ := Grammar.eq_of_outline htree
    show (do return (Place.term (← Term.iri <$> take (scope.iri Symbol.terminal? _)), [])) = _
    rw [hiri]
    rfl
  | blank b =>
    obtain ⟨start, text, trees, rfl, -, htext⟩ := Grammar.eq_of_outline htree
    obtain rfl := hasTokens.text_eq htext
    show pure (Place.var ("_:" ++ String.ofList b.label.toList), []) = _
    rw [String.ofList_toList]
    rfl
  | literal l =>
    have hread : tree.rule = .literal ∧ scope.literal Symbol.terminal? tree = .ok l :=
      hasTokens.literal_eq terminal?_terminal h
        (fun _ _ hwell _ => hasTokens.iri_eq terminal?_terminal hwell) htree
    obtain ⟨hrule, hliteral⟩ := hread
    obtain ⟨rule, start, text, trees⟩ := tree
    cases hrule
    show (do return (Place.term (← Term.literal <$> take (scope.literal Symbol.terminal? _)), [])) = _
    rw [hliteral]
    rfl

/-- The walk makes of the nodes of lines the patterns of their triples. -/
theorem readBlocks_eq {ts : List Triple} (h : ∀ t ∈ ts, t.IsWellFormed) {trees : List Node}
    (htrees : grammar.outlines trees = ts.map lineOutline) :
    readBlocks scope false trees = pure (ts.map patternOf) := by
  have hall : trees.mapM (readSameSubject scope false) = pure (ts.map fun t => [patternOf t]) := by
    induction ts generalizing trees with
    | nil =>
      rw [Grammar.eq_nil_of_outlines htrees]
      rfl
    | cons t ts ih =>
      obtain ⟨tree, rest, rfl, htree, hrest⟩ := Grammar.eq_cons_of_outlines htrees
      have ht := h t List.mem_cons_self
      have hline : readSameSubject scope false tree = pure [patternOf t] :=
        readSameSubject_eq htree (fun _ => readPlace_eq ht.subject.toTerm)
          (fun _ => readVerb_eq ht.predicate) (fun _ => readPlace_eq ht.object)
      rw [List.mapM_cons, hline, ih (fun u hu => h u (List.mem_cons_of_mem t hu)) hrest]
      rfl
  rw [readBlocks, hall, pure_bind, ← List.flatMap_def, ← List.map_eq_flatMap]

end Reading

/-- The content of a group that asks for triples: a block, or nothing if there are none. -/
def patternElements : List Triple → List Element
  | [] => []
  | t :: ts => [.triples ((t :: ts).map patternOf)]

/-- Lines between braces are read as a query that asks for the patterns of their triples. -/
theorem read_lines {ts : List Triple} (h : ∀ t ∈ ts, t.IsWellFormed) :
    read ("ASK \x7b " ++ Turtle.writeLines ts ++ " \x7d") =
      .ok (asking (patternElements (sortedDistinct ts))) := by
  have hall : ∀ t ∈ sortedDistinct ts, t.IsWellFormed := fun t ht =>
    h t (mem_sortedDistinct.mp ht)
  have htext : ("ASK \x7b " ++ Turtle.writeLines ts ++ " \x7d").toList =
      'A' :: 'S' :: 'K' :: ' ' :: '\x7b' :: ' ' ::
        (linesText (sortedDistinct ts) ++ [' ', '\x7d']) := by
    simp [Turtle.writeLines, linesText, String.toList_join, List.flatMap_map]
  generalize sortedDistinct ts = sorted at hall htext ⊢
  have hblank : wordsOf (' ' :: (linesText sorted ++ [' ', '\x7d'])) =
      wordsOf (linesText sorted ++ [' ', '\x7d']) := wordsOf_blank rfl _
  have hsubquery := refuses_selectClause sorted
  have hcontent := leads_content hall
  rw [← hblank] at hsubquery hcontent
  have hread : ∀ parts, grammar.outlines parts = blockOutlines sorted →
      readElements (IriScope.ofBase none) [] parts = pure (patternElements sorted) := by
    intro parts hparts
    cases sorted with
    | nil =>
      rw [Grammar.eq_nil_of_outlines hparts]
      rfl
    | cons t ts =>
      obtain ⟨block, rfl, hblock⟩ := Grammar.eq_singleton_of_outlines hparts
      obtain ⟨_, _, lines, rfl, hlines, -⟩ := Grammar.eq_of_outline hblock
      simp only [readElements, readElement, readBlocks_eq hall hlines, pure_bind]
      rfl
  exact read_ask htext hsubquery hcontent hread

end RdfStore.Query
