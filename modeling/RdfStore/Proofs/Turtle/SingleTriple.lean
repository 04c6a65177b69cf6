import RdfStore.Proofs.Turtle.Passages
import RdfStore.Proofs.Turtle.TermText

/-!
# Documents of one triple

A document of two IRIs, an object and a dot is parsed if the object is read up to the dot, and it
states what the node of the object denotes. If the object ends inside a comment, the comment takes
the dot, and the document is refused.
-/

set_option autoImplicit false

namespace RdfStore.Turtle

open RdfStore.Peg RdfStore.Syntax RdfStore.Text

/-! ## Parsing -/

/-- Two IRIs before a text. -/
def twoIris (subject predicate rest : List Char) : List Char :=
  '<' :: (subject ++ '>' :: ' ' :: '<' :: (predicate ++ '>' :: ' ' :: rest))

/-- A text after two IRIs may be cut anywhere. -/
theorem twoIris_append (subject predicate front rest : List Char) :
    twoIris subject predicate (front ++ rest) = twoIris subject predicate front ++ rest := by
  simp [twoIris]

/-- The node of a statement of one triple. -/
def tripleOutline (subject predicate : List Char) (object : Outline Symbol) : Outline Symbol :=
  .node .triples [] [iriOutline .terminal subject, .node .predicateObjectList []
    [iriOutline .terminal predicate, .node .objectList [] [object]]]

section Parsing

variable {subject predicate cs next : List Char} {object : Outline Symbol}

/-- Two IRIs and an object are read as triples. -/
theorem leads_triples (hsubject : ∀ c ∈ subject, isIriChar c = true)
    (hpredicate : ∀ c ∈ predicate, isIriChar c = true) (hcs : wordsOf cs = cs)
    (h : Leads grammar Symbol.object cs [object] next) (hcomma : next.head? ≠ some ',')
    (hsemicolon : next.head? ≠ some ';') :
    Leads grammar (.rule .triples) (twoIris subject predicate cs)
      [tripleOutline subject predicate object] next := by
  have hnext : wordsOf next = next := by
    obtain ⟨rest, -, rfl⟩ := h
    exact wordsOf_wordsOf rest
  have hobjects : Leads grammar (.rule .objectList) cs [.node .objectList [] [object]] next := by
    have hstop : Chain grammar (.seq (.one ',') Symbol.object) next [] next :=
      (refuses_one_of_head hcomma).seq.chain
    have hread := h.seq (hstop.star hnext)
    exact Leads.rule_words rfl hread
  have hverb : Leads grammar Symbol.verb ('<' :: (predicate ++ '>' :: ' ' :: cs))
      [iriOutline .terminal predicate] cs :=
    ((reads_iriRef hasTokens hpredicate _).leads
      ((wordsOf_blank rfl cs).trans hcs)).choice_left.choice_left
  have hproperties := Leads.rule_words (r := Symbol.predicateObjectList) rfl
    ((hverb.seq hobjects).seq (Chain.star (refuses_one_of_head hsemicolon).seq.chain hnext))
  have hfirst : Leads grammar Symbol.subject (twoIris subject predicate cs)
      [iriOutline .terminal subject] ('<' :: (predicate ++ '>' :: ' ' :: cs)) :=
    ((reads_iriRef hasTokens hsubject _).leads rfl).choice_left.choice_left
  have hlist : Refuses grammar .words (.rule .blankNodePropertyList)
      (twoIris subject predicate cs) := refuses_of_head rfl rfl _
  exact Leads.rule_words rfl (Leads.choice_right hlist.seq (hfirst.seq hproperties))

/-- A triple with a dot at the end of the text is a document. -/
theorem parse_triple (h : Leads grammar (.rule .triples) ('<' :: cs) [object] ['.']) :
    ∃ trees, parseDocument ('<' :: cs) = .ok trees ∧
      grammar.outlines trees = [.node .document [] [object, .node .endOfText [] []]] := by
  have hdirective : Refuses grammar .words Symbol.directive ('<' :: cs) := refuses_of_head rfl rfl _
  have hdot : Leads grammar (.one '.') ['.'] [] [] := (reads_one '.' []).leads rfl
  have hend : Leads grammar (.rule .endOfText) [] [.node .endOfText [] []] [] :=
    Leads.rule_words rfl ((refuses_end rfl).notAhead.leads rfl)
  have hstop : Chain grammar Symbol.statement [] [] [] := (refuses_end rfl).chain
  have hstatements : Leads grammar (.star Symbol.statement) ('<' :: cs) [object] [] :=
    ((Leads.choice_right hdirective (h.seq hdot)).chain hstop).star (wordsOf_cons rfl cs)
  have hstart : Leads grammar .nothing ('<' :: cs) [] ('<' :: cs) :=
    (reads_nothing _).leads (wordsOf_cons rfl cs)
  obtain ⟨rest, hread, -⟩ := Leads.rule_words (r := Symbol.document) rfl
    (hstart.seq (hstatements.seq hend))
  exact hread.parse isGuarded_grammar

/-- A triple without a dot is no document. -/
theorem parse_triple_error (h : Leads grammar (.rule .triples) ('<' :: cs) [object] []) :
    ∃ index, parseDocument ('<' :: cs) = .error index := by
  have hdirective : Refuses grammar .words Symbol.directive ('<' :: cs) := refuses_of_head rfl rfl _
  have hdot : Refuses grammar .words (.one '.') [] := refuses_one_of_head nofun
  have hstatement : Refuses grammar .words Symbol.statement ('<' :: cs) :=
    hdirective.choice (h.seq_refuses hdot)
  have hstatements : Leads grammar (.star Symbol.statement) ('<' :: cs) [] ('<' :: cs) :=
    hstatement.chain.star (wordsOf_cons rfl cs)
  have hend : Refuses grammar .words (.rule .endOfText) ('<' :: cs) :=
    Refuses.rule (reads_char rfl cs).notAhead_refuses
  have hstart : Leads grammar .nothing ('<' :: cs) [] ('<' :: cs) :=
    (reads_nothing _).leads (wordsOf_cons rfl cs)
  have hdocument : Refuses grammar .words (.rule .document) ('<' :: cs) :=
    Refuses.rule (hstart.seq_refuses (hstatements.seq_refuses hend))
  exact hdocument.parse isGuarded_grammar

end Parsing

/-! ## Reading -/

/-- The reader states the triple of two IRIs and what the node of the object denotes. -/
theorem run_readStatement_triple {s : ReaderState} {subject predicate : Iri}
    (hsubject : subject.IsWellFormed) (hpredicate : predicate.IsWellFormed)
    {object : Outline Symbol} {tree : Node}
    (htree : grammar.outline tree =
      tripleOutline subject.text.toList predicate.text.toList object) :
    ∃ objectTree, grammar.outline objectTree = object ∧ (readStatement tree).run s =
      (do
        let object ← readTerm objectTree
        emit (.iri subject) predicate object).run s := by
  have hiri : ∀ {i : Iri}, i.IsWellFormed → ∀ {tree : Node},
      grammar.outline tree = iriOutline .terminal i.text.toList →
      ∃ start text children, tree = .node (.terminal .iriRef) start text children ∧
        (readIri tree).run s = .ok (i, s) := by
    intro i hi tree htree
    have hread : s.scope.iri Symbol.terminal? tree = .ok i :=
      hasTokens.iri_eq terminal?_terminal hi htree
    obtain ⟨start, text, children, rfl, -, -⟩ := Grammar.eq_of_outline htree
    exact ⟨start, text, children, rfl, run_readIri hread⟩
  obtain ⟨_, _, trees, rfl, htrees, -⟩ := Grammar.eq_of_outline htree
  obtain ⟨first, rest, rfl, hfirst, hrest⟩ := Grammar.eq_cons_of_outlines htrees
  obtain ⟨list, rfl, hlist⟩ := Grammar.eq_singleton_of_outlines hrest
  obtain ⟨_, _, items, rfl, hitems, -⟩ := Grammar.eq_of_outline hlist
  obtain ⟨verb, more, rfl, hverb, hmore⟩ := Grammar.eq_cons_of_outlines hitems
  obtain ⟨objects, rfl, hobjects⟩ := Grammar.eq_singleton_of_outlines hmore
  obtain ⟨_, _, objectTrees, rfl, hobjectTrees, -⟩ := Grammar.eq_of_outline hobjects
  obtain ⟨objectTree, rfl, hobject⟩ := Grammar.eq_singleton_of_outlines hobjectTrees
  obtain ⟨start, text, children, rfl, hsubjectRun⟩ := hiri hsubject hfirst
  obtain ⟨start', text', children', rfl, hverbRun⟩ := hiri hpredicate hverb
  refine ⟨objectTree, hobject, ?_⟩
  have hterm : (readTerm (.node (.terminal .iriRef) start text children)).run s =
      .ok (.iri subject, s) := run_map hsubjectRun
  have hfirstRun : (readSubject (.node (.terminal .iriRef) start text children)).run s =
      .ok (.iri subject, s) := by
    rw [readSubject, run_bind hterm]
    rfl
  have hverbs : ∀ rest, (readVerbObjects (.iri subject) none
      (.node (.terminal .iriRef) start' text' children' :: rest)).run s =
      (readVerbObjects (.iri subject) (some predicate) rest).run s := by
    intro rest
    rw [readVerbObjects]
    · exact run_bind hverbRun
    · rintro ⟨⟩
    · rintro ⟨⟩
  show (readTriples [_, _]).run s = _
  rw [readTriples, run_bind hfirstRun, readProperties, hverbs, readVerbObjects, readObjects,
    readObjects, readVerbObjects]
  simp

section Reading

variable {subject predicate : Iri} {cs : List Char} {object : Outline Symbol} {text : String}

/-- A document of two IRIs, an object and a dot is read as the node of the object is. -/
theorem exists_read_triple (hsubject : subject.IsWellFormed) (hpredicate : predicate.IsWellFormed)
    (hwords : wordsOf (cs ++ [' ', '.']) = cs ++ [' ', '.'])
    (hobject : Leads grammar Symbol.object (cs ++ [' ', '.']) [object] ['.'])
    (htext : text.toList = twoIris subject.text.toList predicate.text.toList (cs ++ [' ', '.'])) :
    ∃ tree, grammar.outline tree = object ∧ read text none =
      (((readTerm tree).run (ReaderState.start none)).map fun r =>
        (r.2.triples.push ⟨.iri subject, predicate, r.1⟩).toList).mapError fun failure =>
          .refused (Position.ofIndex text.toList failure.index) failure.problem := by
  have hleads := leads_triples (isIriChar_of_wellFormed hsubject)
    (isIriChar_of_wellFormed hpredicate) hwords hobject nofun nofun
  obtain ⟨trees, hparse, htrees⟩ := parse_triple hleads
  obtain ⟨document, rfl, hdocument⟩ := Grammar.eq_singleton_of_outlines htrees
  obtain ⟨_, _, statements, rfl, hstatements, -⟩ := Grammar.eq_of_outline hdocument
  obtain ⟨statement, _, rfl, hstatement, hrest⟩ := Grammar.eq_cons_of_outlines hstatements
  obtain ⟨ending, rfl, hending⟩ := Grammar.eq_singleton_of_outlines hrest
  obtain ⟨_, _, _, rfl, -, -⟩ := Grammar.eq_of_outline hending
  obtain ⟨tree, htree, hrun⟩ :=
    run_readStatement_triple (s := ReaderState.start none) hsubject hpredicate hstatement
  refine ⟨tree, htree, ?_⟩
  rw [← twoIris, ← htext] at hparse
  unfold read
  dsimp only [Option.filter]
  rw [hparse]
  dsimp only
  unfold readDocument
  rw [List.flatMap_singleton, ParseTree.children, readStatements, StateT.run_bind, hrun,
    StateT.run_bind]
  cases (readTerm tree).run (ReaderState.start none) <;> rfl

/-- A document of two IRIs and an object that ends inside a comment is refused. -/
theorem exists_read_triple_error (hsubject : subject.IsWellFormed)
    (hpredicate : predicate.IsWellFormed) (hwords : wordsOf (cs ++ [' ', '.']) = cs ++ [' ', '.'])
    (hobject : Leads grammar Symbol.object (cs ++ [' ', '.']) [object] [])
    (htext : text.toList = twoIris subject.text.toList predicate.text.toList (cs ++ [' ', '.'])) :
    ∃ error, read text none = .error error := by
  have hleads := leads_triples (isIriChar_of_wellFormed hsubject)
    (isIriChar_of_wellFormed hpredicate) hwords hobject nofun nofun
  obtain ⟨index, hparse⟩ := parse_triple_error hleads
  rw [← twoIris, ← htext] at hparse
  refine ⟨.unmatched (Position.ofIndex text.toList index), ?_⟩
  unfold read
  dsimp only
  rw [hparse]

/-- If a document of two IRIs, an object and a dot is read, the object does not end inside a
comment, and the document states what the node of the object denotes. -/
theorem of_read_triple (hsubject : subject.IsWellFormed) (hpredicate : predicate.IsWellFormed)
    {inComment : Bool} (hobject : IsObject cs inComment object)
    (htext : text.toList = twoIris subject.text.toList predicate.text.toList (cs ++ [' ', '.']))
    {triples : List Triple} (h : read text none = .ok triples) :
    inComment = false ∧ ∃ tree t s, grammar.outline tree = object ∧
      (readTerm tree).run (ReaderState.start none) = .ok (t, s) ∧
      triples = (s.triples.push ⟨.iri subject, predicate, t⟩).toList := by
  obtain ⟨c, tail, hcs, hword⟩ := hobject.start
  have hwords : wordsOf (cs ++ [' ', '.']) = cs ++ [' ', '.'] := by
    rw [hcs]
    exact wordsOf_cons hword _
  cases inComment with
  | true =>
    have hleads := hobject.leads ['.'] (refuses_end rfl)
    obtain ⟨error, herror⟩ :=
      exists_read_triple_error hsubject hpredicate hwords hleads htext
    rw [h] at herror
    cases herror
  | false =>
    have hleads := hobject.leads ['.'] (refuses_of_head rfl rfl [])
    obtain ⟨tree, htree, hread⟩ := exists_read_triple hsubject hpredicate hwords hleads htext
    refine ⟨rfl, tree, ?_⟩
    rw [h] at hread
    cases hterm : (readTerm tree).run (ReaderState.start none) with
    | error failure =>
      rw [hterm] at hread
      cases hread
    | ok ending =>
      rw [hterm] at hread
      cases hread
      exact ⟨_, _, htree, rfl, rfl⟩

/-- A written term is the object that a document states. -/
theorem read_writtenObject (hsubject : subject.IsWellFormed) (hpredicate : predicate.IsWellFormed)
    {t : Term} (ht : t.IsWellFormed) (hblank : ∀ b, t ≠ .blank b)
    (htext : text.toList =
      twoIris subject.text.toList predicate.text.toList (t.written.toList ++ [' ', '.'])) :
    read text none = .ok [⟨.iri subject, predicate, t⟩] := by
  have hfits := fits_object Namespaces.empty ht
  have hwords := hfits.wordsOf_eq [' ', '.']
  have hleads := hfits.leads [' ', '.'] (.dot [])
  rw [termPart_text, writeTerm_empty] at hwords hleads
  obtain ⟨tree, htree, hread⟩ := exists_read_triple hsubject hpredicate hwords hleads htext
  have hmeans : Means (IriScope.ofBase none) (termPart Namespaces.empty t).node t :=
    means_termPart ht fun _ _ _ _ h => nomatch h
  obtain ⟨s, hrun, hstating, -⟩ :=
    hmeans tree htree (ReaderState.start none) (ReaderState.isNamed_start none) rfl
  have hname : t.mapBlank s.name = t := by
    cases t with
    | blank b => exact absurd rfl (hblank b)
    | iri i => rfl
    | literal l => rfl
  have htriples : s.triples.toList = [] := hstating.triples
  rw [hread, hrun, hname]
  show Except.ok (s.triples.push _).toList = _
  rw [Array.toList_push, htriples]
  rfl

end Reading

end RdfStore.Turtle
