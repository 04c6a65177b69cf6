import RdfStore.Proofs.Query.TermNodes
import RdfStore.Proofs.Query.WrittenPatterns
import RdfStore.Proofs.Turtle.SingleTriple

/-!
# Objects in Turtle and in queries

A text that is a term is the object of a triple in a document and the object of a pattern in a
query, and both denote the same term. A plus sign is the exception: after a predicate a query takes
it for the repetition of a path, and refuses the path, although it is the sign of a number.
-/

set_option autoImplicit false

namespace RdfStore.Query

open RdfStore.Peg RdfStore.Syntax RdfStore.Text
open RdfStore.Turtle (wordsOf wordsOf_cons wordsOf_blank wordsFrom isWordStart twoIris)

/-! ## A query for one pattern -/

section Asking

variable {subject predicate : Iri} {cs : List Char} {repeats : List (Outline Symbol)}
  {node : Outline Symbol}

/-- One statement between braces is read as the content of a group. -/
theorem leads_content_statement {statement : Outline Symbol} {cs : List Char}
    (h : Leads grammar (.rule .sameSubject) cs [statement] ['\x7d']) :
    Leads grammar (.rule .groupContent) cs
      [.node .groupContent [] [.node .triplesBlock [] [statement]]] ['\x7d'] := by
  have hdots : Chain grammar (.seq (.one '.') (.opt (.rule .sameSubject))) ['\x7d'] [] ['\x7d'] :=
    (refuses_of_head rfl rfl []).chain
  have hblock := Leads.rule_words (r := Symbol.triplesBlock) rfl (h.seq (hdots.star rfl))
  have hend : Chain grammar (.seqs [Symbol.patternNotTriples, .opt (.one '.'),
      .opt (.rule .triplesBlock)]) ['\x7d'] [] ['\x7d'] := (refuses_of_head rfl rfl []).chain
  exact Leads.rule_words rfl (hblock.opt.seq (hend.star rfl))

/-- A query for one pattern is read as the places of its parts, unless the verb is refused. -/
theorem read_statement {text : String} {objectText : List Char} {object : Place}
    {verb : Except Failure Place} (hsubject : subject.IsWellFormed)
    (htext : text.toList = 'A' :: 'S' :: 'K' :: ' ' :: '\x7b' :: ' ' ::
      twoIris subject.text.toList predicate.text.toList cs)
    (hpath : Leads grammar (.rule .path) ('<' :: (predicate.text.toList ++ '>' :: ' ' :: cs))
      [pathOutline predicate.text.toList repeats] objectText)
    (hnode : Leads grammar Symbol.graphNode objectText [node] ['\x7d'])
    (hverb : ∀ tree, grammar.outline tree = pathOutline predicate.text.toList repeats →
      readVerb (IriScope.ofBase none) tree = ExceptT.mk (pure verb))
    (hobject : ∀ tree, grammar.outline tree = node →
      readPlace (IriScope.ofBase none) false tree = pure (object, [])) :
    read text = (verb.map fun predicate =>
      asking [.triples [⟨.term (.iri subject), predicate, object⟩]]).mapError
        (Failure.locate text.toList) := by
  have hfirst := @leads_subject (.iri subject) hsubject
    ('<' :: (predicate.text.toList ++ '>' :: ' ' :: cs))
  have hwritten : (Subject.iri subject).toTerm.written.toList ++ ' ' ::
      '<' :: (predicate.text.toList ++ '>' :: ' ' :: cs) =
      twoIris subject.text.toList predicate.text.toList cs := by
    show subject.written.toList ++ _ = _
    rw [Turtle.toList_writtenIri, twoIris, List.cons_append, List.append_assoc,
      List.singleton_append]
  rw [hwritten, wordsOf_cons rfl] at hfirst
  have hstatement := leads_statement hfirst hpath hnode (by decide) (by decide)
  have hcontent := leads_content_statement hstatement
  have hsubquery : Refuses grammar .words (.rule .selectClause)
      (twoIris subject.text.toList predicate.text.toList cs) := refuses_of_head rfl rfl _
  have hwords : wordsOf (' ' :: twoIris subject.text.toList predicate.text.toList cs) =
      twoIris subject.text.toList predicate.text.toList cs :=
    (wordsOf_blank rfl _).trans (wordsOf_cons rfl _)
  rw [← hwords] at hsubquery hcontent
  have hread : ∀ parts, grammar.outlines parts =
      [.node .triplesBlock [] [statementOutline (termOutline (.iri subject))
        (pathOutline predicate.text.toList repeats) node]] →
      readElements (IriScope.ofBase none) [] parts = ExceptT.mk (pure (verb.map fun predicate =>
        [.triples [⟨.term (.iri subject), predicate, object⟩]])) := by
    intro parts hparts
    obtain ⟨block, rfl, hblock⟩ := Grammar.eq_singleton_of_outlines hparts
    obtain ⟨_, _, statements, rfl, hstatements, -⟩ := Grammar.eq_of_outline hblock
    obtain ⟨tree, rfl, htree⟩ := Grammar.eq_singleton_of_outlines hstatements
    have hpattern := readSameSubject_eq htree (fun _ => readPlace_eq (t := .iri subject) hsubject)
      hverb hobject
    simp only [readElements, readElement, readBlocks, List.mapM_cons, List.mapM_nil, hpattern]
    cases verb <;> rfl
  rw [read_ask htext hsubquery hcontent hread]
  cases verb <;> rfl

end Asking

/-! ## Objects after a predicate -/

/-- What a term starts with is a word, and only a plus sign repeats a path. -/
theorem termStarts_peek : ∀ c ∈ Turtle.termStarts, isWordStart c = true ∧ c ≠ '/' ∧ c ≠ '|' ∧
    (c ≠ '+' → (.rule .pathRepeat : Phrase).peek (grammar.peek (some c) 6) (some c) = .fails) :=
  List.forall_iff_forall_mem.mp (by decide)

section Objects

variable {subject predicate : Iri} {cs : List Char} {text : String}

/-- A term that starts with no plus sign is the object of the pattern. -/
theorem read_object (hsubject : subject.IsWellFormed) (hpredicate : predicate.IsWellFormed)
    (htext : text.toList = 'A' :: 'S' :: 'K' :: ' ' :: '\x7b' :: ' ' ::
      twoIris subject.text.toList predicate.text.toList (cs ++ [' ', '\x7d']))
    (hstart : ∃ c tail, cs = c :: tail ∧ c ∈ Turtle.termStarts) (hplus : cs.head? ≠ some '+')
    {node : Outline Symbol} (hnode : IsNode cs false node) {t : Term}
    (hterm : ∀ tree, grammar.outline tree = node →
      readPlace (IriScope.ofBase none) false tree = pure (.term t, [])) :
    read text =
      .ok (asking [.triples [⟨.term (.iri subject), .term (.iri predicate), .term t⟩]]) := by
  have hobject := hnode ['\x7d'] (Turtle.refuses_of_head rfl rfl [])
  change Leads grammar Symbol.graphNode (cs ++ [' ', '\x7d']) [node] ['\x7d'] at hobject
  obtain ⟨c, tail, rfl, hc⟩ := hstart
  obtain ⟨hword, hslash, hbar, hpeek⟩ := termStarts_peek c hc
  have hne : c ≠ '+' := fun heq => hplus (congrArg some heq)
  have hrepeat : Leads grammar (.opt (.rule .pathRepeat))
      (wordsOf (' ' :: (c :: tail ++ [' ', '\x7d']))) [] (c :: tail ++ [' ', '\x7d']) := by
    rw [wordsOf_blank rfl, List.cons_append, wordsOf_cons hword]
    exact (refuses_of_head hword (hpeek hne) _).leads_opt (wordsOf_cons hword _)
  have hpath := leads_path (isIriChar_of_wellFormed hpredicate) hrepeat
    (fun heq => hslash (Option.some.inj heq)) (fun heq => hbar (Option.some.inj heq))
  rw [read_statement hsubject htext hpath hobject (fun _ => readVerb_eq hpredicate) hterm]
  rfl

/-- The walk refuses a path that is repeated. -/
theorem readVerb_repeated {scope : IriScope} {tree : Node} {content : List Char}
    {repeats : Outline Symbol} (htree : grammar.outline tree = pathOutline content [repeats]) :
    readVerb scope tree = ExceptT.mk (pure (.error (.unsupported .propertyPaths))) := by
  obtain ⟨_, _, _, rfl, hpath, -⟩ := Grammar.eq_of_outline htree
  obtain ⟨sequence, rfl, hsequence⟩ := Grammar.eq_singleton_of_outlines hpath
  obtain ⟨_, _, _, rfl, helements, -⟩ := Grammar.eq_of_outline hsequence
  obtain ⟨element, rfl, helement⟩ := Grammar.eq_singleton_of_outlines helements
  obtain ⟨_, _, _, rfl, hprimaries, -⟩ := Grammar.eq_of_outline helement
  obtain ⟨primary, _, rfl, hprimary, hrest⟩ := Grammar.eq_cons_of_outlines hprimaries
  obtain ⟨_, _, _, rfl, hiris, -⟩ := Grammar.eq_of_outline hprimary
  obtain ⟨iri, rfl, hiri⟩ := Grammar.eq_singleton_of_outlines hiris
  obtain ⟨repeated, rfl, -⟩ := Grammar.eq_singleton_of_outlines hrest
  obtain ⟨_, _, _, rfl, -, -⟩ := Grammar.eq_of_outline hiri
  rfl

/-- A plus sign before a number repeats the path of the predicate. -/
theorem read_plus (hsubject : subject.IsWellFormed) (hpredicate : predicate.IsWellFormed)
    (htext : text.toList = 'A' :: 'S' :: 'K' :: ' ' :: '\x7b' :: ' ' ::
      twoIris subject.text.toList predicate.text.toList ('+' :: (cs ++ [' ', '\x7d'])))
    (h : Turtle.TermForm ('+' :: cs)) : read text = .error (.unsupported .propertyPaths) := by
  obtain ⟨t, ht, inner, hrun⟩ := h.of_plus
  have hobject := isNode_numeric hrun ['\x7d'] (Turtle.refuses_of_head rfl rfl [])
  change Leads grammar Symbol.graphNode (cs ++ [' ', '\x7d']) _ ['\x7d'] at hobject
  obtain ⟨c, tail, rfl, hc⟩ := Turtle.numeric_start hrun
  obtain ⟨hword, hslash, hbar, -⟩ :=
    termStarts_peek c (List.mem_append_right ['<', '"', '\x27', 't', 'f'] hc)
  have hplus : Reads grammar .words (.rule .pathRepeat) ('+' :: (c :: tail ++ [' ', '\x7d']))
      [.node .pathRepeat ['+'] []] (c :: tail ++ [' ', '\x7d']) :=
    @Reads.rule_text _ _ _ _ _ _ ['+'] (by decide) rfl
      (Reads.choice_right (refuses_one (by decide) _) (reads_one '+' _).choice_left)
  have hrepeat : Leads grammar (.opt (.rule .pathRepeat))
      (wordsOf (' ' :: '+' :: (c :: tail ++ [' ', '\x7d']))) [.node .pathRepeat ['+'] []]
      (c :: tail ++ [' ', '\x7d']) := by
    rw [wordsOf_blank rfl, wordsOf_cons rfl]
    exact (hplus.leads (wordsOf_cons hword _)).opt
  have hpath := leads_path (isIriChar_of_wellFormed hpredicate) hrepeat
    (fun heq => hslash (Option.some.inj heq)) (fun heq => hbar (Option.some.inj heq))
  rw [read_statement hsubject htext hpath hobject (fun _ => readVerb_repeated)
    fun _ => readPlace_number ht]
  rfl

end Objects

/-! ## The two readers -/

/-- The document that states a triple with a text for its object. -/
def objectDocument (o : String) : String := "<http://e/s> <http://e/p> " ++ o ++ " ."

/-- The query for a pattern with a text for its object. -/
def objectQuery (o : String) : String := "ASK \x7b <http://e/s> <http://e/p> " ++ o ++ " \x7d"

/-- The characters of a text between two others. -/
theorem toList_between {front back : String} {cs ds : List Char} (hfront : front.toList = cs)
    (hback : back.toList = ds) (o : String) :
    (front ++ o ++ back).toList = cs ++ (o.toList ++ ds) := by
  rw [String.toList_append, String.toList_append, hfront, hback, List.append_assoc]

/-- The characters of the document for an object. -/
theorem toList_objectDocument (o : String) : (objectDocument o).toList =
    twoIris "http://e/s".toList "http://e/p".toList (o.toList ++ [' ', '.']) := by
  have hfront : "<http://e/s> <http://e/p> ".toList =
      twoIris "http://e/s".toList "http://e/p".toList [] := by rfl
  exact (toList_between hfront (by rfl) o).trans (Turtle.twoIris_append _ _ [] _).symm

/-- The characters of the query for an object. -/
theorem toList_objectQuery (o : String) : (objectQuery o).toList =
    'A' :: 'S' :: 'K' :: ' ' :: '\x7b' :: ' ' ::
      twoIris "http://e/s".toList "http://e/p".toList (o.toList ++ [' ', '\x7d']) := by
  have hfront : "ASK \x7b <http://e/s> <http://e/p> ".toList =
      ['A', 'S', 'K', ' ', '\x7b', ' '] ++ twoIris "http://e/s".toList "http://e/p".toList [] := by
    rfl
  refine (toList_between hfront (by rfl) o).trans ((List.append_assoc _ _ _).trans ?_)
  exact congrArg (['A', 'S', 'K', ' ', '\x7b', ' '] ++ ·) (Turtle.twoIris_append _ _ [] _).symm

/-- A term that a document takes for the object of its triple, a query takes for the object of its
pattern, unless the term starts with a plus sign: then the query is refused for a path. -/
theorem read_objectQuery {o : String} (ho : Turtle.IsTermText o.toList) {s : Subject} {p : Iri}
    {t : Term} (h : Turtle.read (objectDocument o) none = .ok [⟨s, p, t⟩]) :
    read (objectQuery o) =
      if o.toList.head? = some '+' then .error (.unsupported .propertyPaths)
      else .ok (asking [.triples
        [⟨.term (.iri ⟨"http://e/s"⟩), .term (.iri ⟨"http://e/p"⟩), .term t⟩]]) := by
  have hform := ho.form
  split
  · rename_i hplus
    obtain ⟨tail, htail⟩ := List.head?_eq_some_iff.mp hplus
    have htext := toList_objectQuery o
    rw [htail] at hform htext
    exact @read_plus ⟨"http://e/s"⟩ ⟨"http://e/p"⟩ _ _ rfl rfl htext hform
  · rename_i hplus
    obtain ⟨inComment, object, node, hobject, hnode, hsame⟩ := exists_node hform
    obtain ⟨rfl, tree, term, state, htree, hrun, htriples⟩ :=
      @Turtle.of_read_triple ⟨"http://e/s"⟩ ⟨"http://e/p"⟩ _ _ _ rfl rfl _ hobject
        (toList_objectDocument o) _ h
    obtain ⟨rfl, hplace⟩ := hsame htree hrun
    cases htriples
    exact @read_object ⟨"http://e/s"⟩ ⟨"http://e/p"⟩ _ _ rfl rfl (toList_objectQuery o) hform.start
      hplus _ hnode _ hplace

/-- A literal in a language, whose value holds both quotes. -/
theorem read_objectQuery_tagged :
    Turtle.IsTermText "\"it's \\\"so\\\"\"@en".toList ∧
    Turtle.read (objectDocument "\"it's \\\"so\\\"\"@en") none =
      .ok [⟨.iri ⟨"http://e/s"⟩, ⟨"http://e/p"⟩, .literal ⟨"it's \"so\"", .tagged "en"⟩⟩] ∧
    read (objectQuery "\"it's \\\"so\\\"\"@en") = .ok (asking [.triples
      [⟨.term (.iri ⟨"http://e/s"⟩), .term (.iri ⟨"http://e/p"⟩),
        .term (.literal ⟨"it's \"so\"", .tagged "en"⟩)⟩]]) := by
  have ho : Turtle.IsTermText "\"it's \\\"so\\\"\"@en".toList :=
    ⟨.rule .literal, by simp [Turtle.termForms], _,
      @reads_of_matched _ _ _ _ _ _ 30 _ ⟨[], _, _⟩ (by rfl)⟩
  have hwritten : (Term.literal ⟨"it's \"so\"", .tagged "en"⟩).written =
      "\"it's \\\"so\\\"\"@en" := by decide
  have h : Turtle.read (objectDocument "\"it's \\\"so\\\"\"@en") none =
      .ok [⟨.iri ⟨"http://e/s"⟩, ⟨"http://e/p"⟩, .literal ⟨"it's \"so\"", .tagged "en"⟩⟩] :=
    @Turtle.read_writtenObject ⟨"http://e/s"⟩ ⟨"http://e/p"⟩ _ rfl rfl
      (.literal ⟨"it's \"so\"", .tagged "en"⟩)
      (@Literal.IsWellFormed.tagged "it's \"so\"" "en" _ rfl) (by simp)
      (hwritten ▸ toList_objectDocument _)
  exact ⟨ho, h, (read_objectQuery ho h).trans (if_neg (by decide))⟩

/-- The sign of a number is taken for the repetition of a path. -/
theorem read_objectQuery_plus :
    Turtle.IsTermText "+5".toList ∧
    Turtle.read (objectDocument "+5") none =
      .ok [⟨.iri ⟨"http://e/s"⟩, ⟨"http://e/p"⟩, .literal ⟨"+5", .typed Vocabulary.xsdInteger⟩⟩] ∧
    read (objectQuery "+5") = .error (.unsupported .propertyPaths) := by
  have hmatched : matchExpr Turtle.grammar (matchRule Turtle.grammar 10) 10 .words
      (Terminal.numeric .terminal) ⟨"+5".toList, 0, 0⟩ =
      .matched [.node (.terminal .integer) 0 ['+', '5'] []] ⟨[], 2, 0⟩ := by rfl
  have hread : Reads Turtle.grammar .words (Terminal.numeric .terminal) "+5".toList
      [.node (.terminal .integer) ['+', '5'] []] [] := reads_of_matched hmatched
  have ho : Turtle.IsTermText "+5".toList :=
    ⟨Terminal.numeric .terminal, by simp [Turtle.termForms], _, hread⟩
  obtain ⟨tree, htree, hdocument⟩ := @Turtle.exists_read_triple ⟨"http://e/s"⟩ ⟨"http://e/p"⟩ _ _ _
    rfl rfl rfl ((Turtle.isObject_numeric hread.runs).leads ['.']
      (Turtle.refuses_of_head rfl rfl [])) (toList_objectDocument "+5")
  obtain ⟨start, text, children, rfl, -, rfl⟩ := Grammar.eq_of_outline htree
  refine ⟨ho, hdocument, ?_⟩
  exact @read_plus ⟨"http://e/s"⟩ ⟨"http://e/p"⟩ ['5'] _ rfl rfl (toList_objectQuery "+5") ho.form

end RdfStore.Query
