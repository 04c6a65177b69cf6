import RdfStore.Proofs.Turtle.Reading

/-!
# Written triples that are read back

A passage is a subject with its clauses, and a clause is a predicate with its objects; a passage
is written as a block. The reader goes through the nodes of a block and states the triples of
the passage, in their order. A document that declares the prefixes it uses, and in which no
block starts like a directive, is thus read as the triples of its passages, under new names for
their blank nodes. The text of a block is what the writers write: of a part what they write for its
term, and of a triple on a line of its own the block of a passage with one object.
-/

set_option autoImplicit false

namespace RdfStore.Turtle

open RdfStore.Peg RdfStore.Syntax RdfStore.Text

/-- A predicate with its objects. -/
structure Clause where
  predicate : Iri
  object : Term
  others : List Term

/-- A subject with its clauses. -/
structure Passage where
  subject : Subject
  clause : Clause
  others : List Clause

/-- The triples of a clause. -/
def Clause.triples (c : Clause) (subject : Subject) : List Triple :=
  (c.object :: c.others).map fun o => ⟨subject, c.predicate, o⟩

/-- The written form of a clause. -/
def Clause.property (c : Clause) (ns : Namespaces) (usesKeyword : Bool) : Property :=
  ⟨verbPart ns usesKeyword c.predicate, termPart ns c.object, c.others.map (termPart ns)⟩

/-- The triples of a passage. -/
def Passage.triples (p : Passage) : List Triple :=
  (p.clause :: p.others).flatMap fun c => c.triples p.subject

/-- The first triple of a passage. -/
def Passage.first (p : Passage) : Triple := ⟨p.subject, p.clause.predicate, p.clause.object⟩

/-- The written form of a passage. -/
def Passage.block (p : Passage) (ns : Namespaces) (usesKeyword : Bool) : Block :=
  ⟨termPart ns p.subject.toTerm, p.clause.property ns usesKeyword,
    p.others.map fun c => c.property ns usesKeyword⟩

/-- Every abbreviation in the written form of a triple stands for its IRI in the scope. -/
structure Covers (scope : IriScope) (ns : Namespaces) (usesKeyword : Bool) (t : Triple) :
    Prop where
  subject : ∀ i ∈ termIris t.subject.toTerm, Expands scope ns i
  predicate : (usesKeyword ∧ t.predicate = Vocabulary.rdfType) ∨ Expands scope ns t.predicate
  object : ∀ i ∈ termIris t.object, Expands scope ns i

variable {scope : IriScope} {ns : Namespaces} {usesKeyword : Bool} {s : ReaderState}

/-! ## Clauses -/

/-- The first triple of a clause. -/
theorem Clause.head_mem (c : Clause) (subject : Subject) :
    ⟨subject, c.predicate, c.object⟩ ∈ c.triples subject := List.mem_cons_self

/-- Every object of a clause makes a triple. -/
theorem Clause.mem_triples {c : Clause} {o : Term} (ho : o ∈ c.object :: c.others)
    (subject : Subject) : ⟨subject, c.predicate, o⟩ ∈ c.triples subject :=
  List.mem_map.mpr ⟨o, ho, rfl⟩

/-- A clause of well-formed triples fits as it is written. -/
theorem Clause.fits {c : Clause} {subject : Subject}
    (h : ∀ t ∈ c.triples subject, t.IsWellFormed) : (c.property ns usesKeyword).Fits where
  verb := fits_verb ns usesKeyword (h _ (c.head_mem subject)).predicate
  object := fits_object ns (h _ (c.head_mem subject)).object
  others := by
    intro part hpart
    obtain ⟨o, ho, rfl⟩ := List.mem_map.mp hpart
    exact fits_object ns (h _ (Clause.mem_triples (List.mem_cons_of_mem _ ho) subject)).object

/-- The reader states a triple for every object. -/
theorem run_readObjects {subject : Subject} (predicate : Iri) {objects : List Term}
    (hmeans : ∀ o ∈ objects, Means scope (termPart ns o).node o) {trees : List Node}
    (htrees : grammar.outlines trees = objects.map fun o => (termPart ns o).node)
    (hs : s.IsNamed) (hscope : s.scope = scope)
    (hsubject : ∀ b, subject = .blank b → s.Knows b) :
    ∃ s', (readObjects (subject.mapBlank s.name) predicate trees).run s = .ok ((), s') ∧
      Stating s s' (objects.map fun o => ⟨subject, predicate, o⟩) := by
  induction objects generalizing trees s with
  | nil =>
    obtain rfl := Grammar.eq_nil_of_outlines htrees
    exact ⟨s, rfl, Stating.refl hs⟩
  | cons o objects ih =>
    obtain ⟨tree, rest, rfl, htree, hrest⟩ := Grammar.eq_cons_of_outlines htrees
    obtain ⟨s₁, hterm, hnamed, hobject⟩ := hmeans o List.mem_cons_self tree htree s hs hscope
    have hmentions : ∀ b, (⟨subject, predicate, o⟩ : Triple).Mentions b → s₁.Knows b := by
      rintro b (hb | hb)
      · exact hnamed.knows (hsubject b hb)
      · exact hobject b hb
    obtain ⟨s₂, hemit, hstated⟩ := run_emit hnamed.named hmentions
    have hboth := hnamed.trans hstated
    obtain ⟨s₃, hmore, hstating⟩ := ih (fun o ho => hmeans o (List.mem_cons_of_mem _ ho)) hrest
      hboth.named (hboth.scope.trans hscope) fun b hb => hboth.knows (hsubject b hb)
    -- the subject keeps its name while the objects get theirs
    have hname : ∀ {s' ts}, Stating s s' ts → subject.mapBlank s'.name = subject.mapBlank s.name :=
      fun hst => Subject.mapBlank_congr fun b hb => hst.name_eq (hsubject b hb)
    rw [hname hboth] at hmore
    dsimp only at hemit
    rw [hname hnamed] at hemit
    refine ⟨s₃, ?_, hboth.trans hstating⟩
    rw [readObjects, run_bind hterm, run_bind hemit]
    exact hmore

/-- The reader takes the node of a written predicate for the predicate. -/
theorem run_readVerb {subject : Subject} {predicate : Iri} (hpredicate : predicate.IsWellFormed)
    (hexpands : (usesKeyword ∧ predicate = Vocabulary.rdfType) ∨ Expands scope ns predicate)
    {tree : Node} (htree : grammar.outline tree = (verbPart ns usesKeyword predicate).node)
    (hscope : s.scope = scope) (verb : Option Iri) (rest : List Node) :
    (readVerbObjects subject verb (tree :: rest)).run s =
      (readVerbObjects subject (some predicate) rest).run s := by
  unfold verbPart at htree
  split at htree
  · rename_i hkeyword
    obtain ⟨start, text, trees, rfl, -, -⟩ := Grammar.eq_of_outline htree
    rw [hkeyword.2]
    rw [readVerbObjects]
  · rename_i hkeyword
    obtain ⟨hiri, hrule⟩ := iri_eq hpredicate (hexpands.resolve_left hkeyword) htree
    obtain ⟨rule, start, text, trees⟩ := tree
    rw [← hscope] at hiri
    rcases hrule with h | h | h <;>
    · cases h
      rw [readVerbObjects]
      · exact run_bind (run_readIri hiri)
      · rintro ⟨⟩
      · rintro ⟨⟩

/-- The reader states the triples of clauses. -/
theorem run_readVerbObjects {subject : Subject} {clauses : List Clause}
    (hclauses : ∀ c ∈ clauses, ∀ t ∈ c.triples subject,
      t.IsWellFormed ∧ Covers scope ns usesKeyword t)
    {trees : List Node}
    (htrees : grammar.outlines trees =
      clauses.flatMap fun c => (c.property ns usesKeyword).nodes)
    (hs : s.IsNamed) (hscope : s.scope = scope)
    (hsubject : ∀ b, subject = .blank b → s.Knows b) (verb : Option Iri) :
    ∃ s', (readVerbObjects (subject.mapBlank s.name) verb trees).run s = .ok ((), s') ∧
      Stating s s' (clauses.flatMap fun c => c.triples subject) := by
  induction clauses generalizing trees s verb with
  | nil =>
    obtain rfl := Grammar.eq_nil_of_outlines htrees
    refine ⟨s, ?_, Stating.refl hs⟩
    rw [readVerbObjects]
    rfl
  | cons c clauses ih =>
    obtain ⟨verbTree, afterVerb, rfl, hverb, hafter⟩ := Grammar.eq_cons_of_outlines htrees
    obtain ⟨objectTree, rest, rfl, hobjects, hrest⟩ := Grammar.eq_cons_of_outlines hafter
    obtain ⟨start, text, objectTrees, rfl, hobjectTrees, -⟩ := Grammar.eq_of_outline hobjects
    have hfirst := hclauses c List.mem_cons_self
    have hhead := hfirst _ (c.head_mem subject)
    have hmeans : ∀ o ∈ c.object :: c.others, Means scope (termPart ns o).node o := fun o ho =>
      means_termPart (hfirst _ (Clause.mem_triples ho subject)).1.object
        (hfirst _ (Clause.mem_triples ho subject)).2.object
    have hnodes : grammar.outlines objectTrees =
        (c.object :: c.others).map fun o => (termPart ns o).node := by
      rw [hobjectTrees, Clause.property, List.map_map, List.map_cons]
      rfl
    obtain ⟨s₁, hrun, hstated⟩ :=
      run_readObjects c.predicate hmeans hnodes hs hscope hsubject
    obtain ⟨s₂, hmore, hstating⟩ := ih (fun c hc => hclauses c (List.mem_cons_of_mem _ hc)) hrest
      hstated.named (hstated.scope.trans hscope) (fun b hb => hstated.knows (hsubject b hb))
      (some c.predicate)
    have hname : subject.mapBlank s₁.name = subject.mapBlank s.name :=
      Subject.mapBlank_congr fun b hb => hstated.name_eq (hsubject b hb)
    rw [hname] at hmore
    refine ⟨s₂, ?_, hstated.trans hstating⟩
    rw [run_readVerb hhead.1.predicate hhead.2.predicate hverb hscope, readVerbObjects,
      run_bind hrun]
    exact hmore

/-! ## Passages -/

/-- The block of a passage of well-formed triples fits as it is written. -/
theorem Passage.fits {p : Passage} (h : ∀ t ∈ p.triples, t.IsWellFormed) :
    (p.block ns usesKeyword).Fits where
  subject := fits_subject ns
    (h _ (List.mem_append_left _ (p.clause.head_mem p.subject))).subject
  property := Clause.fits fun t ht => h t (List.mem_append_left _ ht)
  others := by
    intro property hproperty
    obtain ⟨c, hc, rfl⟩ := List.mem_map.mp hproperty
    have hclause : ∀ t ∈ c.triples p.subject, t.IsWellFormed := fun t ht =>
      h t (List.mem_flatMap.mpr ⟨c, List.mem_cons_of_mem _ hc, ht⟩)
    exact Clause.fits hclause

/-- The reader takes the node of a written subject for the subject. -/
theorem run_readSubject {subject : Subject} {tree : Node}
    (hmeans : Means scope (termPart ns subject.toTerm).node subject.toTerm)
    (htree : grammar.outline tree = (termPart ns subject.toTerm).node) (hs : s.IsNamed)
    (hscope : s.scope = scope) :
    ∃ s', (readSubject tree).run s = .ok (subject.mapBlank s'.name, s') ∧ Stating s s' [] ∧
      ∀ b, subject = .blank b → s'.Knows b := by
  obtain ⟨s', hrun, hstating, hknows⟩ := hmeans tree htree s hs hscope
  refine ⟨s', ?_, hstating, fun b hb => hknows b (by rw [hb]; rfl)⟩
  rw [readSubject, run_bind hrun]
  cases subject <;> rfl

/-- The reader states the triples of a passage. -/
theorem run_readStatement_block {p : Passage}
    (hp : ∀ t ∈ p.triples, t.IsWellFormed ∧ Covers scope ns usesKeyword t) {tree : Node}
    (htree : grammar.outline tree = (p.block ns usesKeyword).statement.node) (hs : s.IsNamed)
    (hscope : s.scope = scope) :
    ∃ s', (readStatement tree).run s = .ok ((), s') ∧ Stating s s' p.triples := by
  obtain ⟨start, text, trees, rfl, htrees, -⟩ := Grammar.eq_of_outline htree
  obtain ⟨subjectTree, rest, rfl, hsubjectTree, hrest⟩ := Grammar.eq_cons_of_outlines htrees
  obtain ⟨listTree, rfl, hlist⟩ := Grammar.eq_singleton_of_outlines hrest
  obtain ⟨start', text', items, rfl, hitems, -⟩ := Grammar.eq_of_outline hlist
  have hhead := hp _ (List.mem_append_left _ (p.clause.head_mem p.subject))
  obtain ⟨s₁, hsubject, hnamed, hknows⟩ := run_readSubject
    (means_termPart hhead.1.subject.toTerm hhead.2.subject) hsubjectTree hs hscope
  have hnodes : grammar.outlines items =
      (p.clause :: p.others).flatMap fun c => (c.property ns usesKeyword).nodes := by
    rw [hitems, Block.nodes, Passage.block, List.flatMap_map]
    rfl
  obtain ⟨s₂, hrun, hstating⟩ := run_readVerbObjects
    (fun c hc t ht => hp t (List.mem_flatMap.mpr ⟨c, hc, ht⟩)) hnodes hnamed.named
    (hnamed.scope.trans hscope) hknows none
  refine ⟨s₂, ?_, hnamed.trans hstating⟩
  show (readTriples [subjectTree, _]).run s = _
  rw [readTriples, run_bind hsubject, readProperties]
  exact hrun

/-! ## Documents -/

/-- The scope after declarations. -/
def declareAll (scope : IriScope) (entries : List (String × String)) : IriScope :=
  entries.foldl (fun scope entry => scope.define entry.1 entry.2) scope

/-- A statement of the reader and those after it. -/
theorem run_readStatements_cons {s' : ReaderState} {tree : Node} {trees : List Node}
    (h : (readStatement tree).run s = .ok ((), s')) :
    (readStatements (tree :: trees)).run s = (readStatements trees).run s' := by
  rw [readStatements, run_bind h]

/-- The reader defines the prefix that a declaration declares. -/
theorem run_readStatement_declaration {name iri : String}
    (hiri : (⟨iri⟩ : Iri).IsWellFormed) {tree : Node}
    (htree : grammar.outline tree = (declaration name.toList iri.toList).node) :
    (readStatement tree).run s = .ok ((), { s with scope := s.scope.define name iri }) := by
  obtain ⟨start, text, trees, rfl, htrees, -⟩ := Grammar.eq_of_outline htree
  obtain ⟨nameTree, rest, rfl, hname, hrest⟩ := Grammar.eq_cons_of_outlines htrees
  obtain ⟨iriTree, rfl, hreference⟩ := Grammar.eq_singleton_of_outlines hrest
  obtain ⟨start', text', trees', rfl, -, htext⟩ := Grammar.eq_of_outline hname
  obtain rfl := hasTokens.text_eq htext
  have hplain : Expands s.scope Namespaces.empty ⟨iri⟩ := fun _ _ h => nomatch h
  have hread : s.scope.iri Symbol.terminal? iriTree = .ok ⟨iri⟩ :=
    (iri_eq hiri hplain hreference).1
  have hdefined : definedPrefix (name.toList ++ [':']) = name := by
    rw [definedPrefix, List.dropLast_concat, String.ofList_toList]
  have hstep : readStatement (.node .prefixDirective start text
      [.node (.terminal .prefixedSpace) start' (name.toList ++ [':']) trees', iriTree]) =
      readIri iriTree >>= fun i => modify fun s =>
        { s with scope := s.scope.define (definedPrefix (name.toList ++ [':'])) i.text } := rfl
  rw [hstep, run_bind (run_readIri hread), hdefined]
  rfl

/-- The reader goes through declarations and then through the other statements. -/
theorem run_readStatements_declarations {entries : List (String × String)}
    (hentries : ∀ e ∈ entries, (⟨e.2⟩ : Iri).IsWellFormed) {trees : List Node}
    {more : List (Outline Symbol)}
    (htrees : grammar.outlines trees =
      (entries.map fun e => (declaration e.1.toList e.2.toList).node) ++ more) :
    ∃ rest, grammar.outlines rest = more ∧ (readStatements trees).run s =
      (readStatements rest).run { s with scope := declareAll s.scope entries } := by
  induction entries generalizing trees s with
  | nil => exact ⟨trees, htrees, rfl⟩
  | cons e entries ih =>
    obtain ⟨tree, others, rfl, htree, hothers⟩ := Grammar.eq_cons_of_outlines htrees
    have hfirst := run_readStatement_declaration (s := s) (hentries e List.mem_cons_self) htree
    obtain ⟨rest, hrest, hrun⟩ := ih (fun e he => hentries e (List.mem_cons_of_mem _ he)) hothers
      (s := { s with scope := s.scope.define e.1 e.2 })
    refine ⟨rest, hrest, ?_⟩
    rw [run_readStatements_cons hfirst, hrun]
    rfl

/-- The reader states the triples of passages and ignores the end of the text. -/
theorem run_readStatements_blocks {passages : List Passage}
    (hpassages : ∀ p ∈ passages, ∀ t ∈ p.triples,
      t.IsWellFormed ∧ Covers scope ns usesKeyword t)
    {trees : List Node}
    (htrees : grammar.outlines trees =
      (passages.map fun p => (p.block ns usesKeyword).statement.node) ++
        [.node .endOfText [] []])
    (hs : s.IsNamed) (hscope : s.scope = scope) :
    ∃ s', (readStatements trees).run s = .ok ((), s') ∧
      Stating s s' (passages.flatMap Passage.triples) := by
  induction passages generalizing trees s with
  | nil =>
    obtain ⟨tree, rfl, htree⟩ := Grammar.eq_singleton_of_outlines htrees
    obtain ⟨start, text, children, rfl, -, -⟩ := Grammar.eq_of_outline htree
    exact ⟨s, rfl, Stating.refl hs⟩
  | cons p passages ih =>
    obtain ⟨tree, others, rfl, htree, hothers⟩ := Grammar.eq_cons_of_outlines htrees
    obtain ⟨s₁, hrun, hstated⟩ :=
      run_readStatement_block (hpassages p List.mem_cons_self) htree hs hscope
    obtain ⟨s₂, hmore, hstating⟩ := ih (fun q hq => hpassages q (List.mem_cons_of_mem _ hq))
      hothers hstated.named (hstated.scope.trans hscope)
    refine ⟨s₂, ?_, hstated.trans hstating⟩
    rw [run_readStatements_cons hrun]
    exact hmore

/-- The text of declarations, blanks and blocks. -/
def documentText (ns : Namespaces) (usesKeyword : Bool) (entries : List (String × String))
    (gap : List Char) (passages : List Passage) : List Char :=
  (entries.flatMap fun e => (declaration e.1.toList e.2.toList).text) ++
    (gap ++ passages.flatMap fun p => (p.block ns usesKeyword).statement.text)

/-- The parts of the text of a document. -/
theorem documentText_eq (ns : Namespaces) (usesKeyword : Bool) (entries : List (String × String))
    (gap : List Char) (passages : List Passage) :
    documentText ns usesKeyword entries gap passages =
      (entries.map fun e => declaration e.1.toList e.2.toList).flatMap Part.text ++
        (gap ++ (passages.map fun p => (p.block ns usesKeyword).statement).flatMap Part.text) := by
  rw [List.flatMap_map, List.flatMap_map]
  rfl

/-- The declarations of prefixes are read as statements. -/
theorem fits_declarations {entries : List (String × String)}
    (h : ∀ e ∈ entries, IsPrefixName e.1.toList ∧ (⟨e.2⟩ : Iri).IsWellFormed) :
    ∀ part ∈ entries.map fun e => declaration e.1.toList e.2.toList,
      part.Fits Symbol.statement fun _ => True := by
  intro part hpart
  obtain ⟨e, he, rfl⟩ := List.mem_map.mp hpart
  exact fits_declaration (h e he).1 (isIriChar_of_wellFormed (h e he).2)

/-- Passages that do not start like directives are read as statements. -/
theorem fits_blocks {passages : List Passage}
    (h : ∀ p ∈ passages, ∀ t ∈ p.triples, t.IsWellFormed)
    (hdirective : ∀ p ∈ passages, ∀ rest,
      Refuses grammar .words Symbol.directive ((p.block ns usesKeyword).text ++ rest)) :
    ∀ part ∈ passages.map fun p => (p.block ns usesKeyword).statement,
      part.Fits Symbol.statement fun _ => True := by
  intro part hpart
  obtain ⟨p, hp, rfl⟩ := List.mem_map.mp hpart
  exact fits_block (Passage.fits (h p hp)) (hdirective p hp)

/-- A document is read as the triples of its passages, in their order, under new names for their
blank nodes. -/
theorem read_documentText (entries : List (String × String)) (gap : List Char)
    {passages : List Passage}
    (hentries : ∀ e ∈ entries, IsPrefixName e.1.toList ∧ (⟨e.2⟩ : Iri).IsWellFormed)
    (hgap : ∀ cs, wordsOf (gap ++ cs) = wordsOf cs)
    (hpassages : ∀ p ∈ passages, ∀ t ∈ p.triples, t.IsWellFormed ∧
      Covers (declareAll (IriScope.ofBase none) entries) ns usesKeyword t)
    (hdirective : ∀ p ∈ passages, ∀ rest,
      Refuses grammar .words Symbol.directive ((p.block ns usesKeyword).text ++ rest)) :
    ∃ f, IsInjectiveOn f (passages.flatMap Passage.triples) ∧
      read (String.ofList (documentText ns usesKeyword entries gap passages)) none =
        .ok ((passages.flatMap Passage.triples).map (Triple.mapBlank f)) := by
  have hblocks := fits_blocks (fun p hp t ht => (hpassages p hp t ht).1) hdirective
  obtain ⟨trees, hparse, htrees⟩ := parse_document (fits_declarations hentries) hgap hblocks
  obtain ⟨document, rfl, hdocument⟩ := Grammar.eq_singleton_of_outlines htrees
  obtain ⟨start, text, statements, rfl, hstatements, -⟩ := Grammar.eq_of_outline hdocument
  rw [List.map_map, List.map_map] at hstatements
  obtain ⟨rest, hrest, hdeclared⟩ := run_readStatements_declarations
    (s := ReaderState.start none) (fun e he => (hentries e he).2) hstatements
  have hnamed : ({ ReaderState.start none with
      scope := declareAll (ReaderState.start none).scope entries } : ReaderState).IsNamed :=
    ⟨(ReaderState.isNamed_start none).injective, (ReaderState.isNamed_start none).numbered⟩
  obtain ⟨s', hrun, hstating⟩ := run_readStatements_blocks hpassages hrest hnamed rfl
  have hdocumentRead : readDocument none [.node .document start text statements] =
      .ok ((passages.flatMap Passage.triples).map (Triple.mapBlank s'.name)) := by
    unfold readDocument
    rw [List.flatMap_singleton]
    dsimp only [ParseTree.children]
    rw [hdeclared, hrun]
    exact congrArg Except.ok hstating.triples
  refine ⟨s'.name, ?_, ?_⟩
  · rintro a b ⟨t, ht, ha⟩ ⟨u, hu, hb⟩ heq
    exact hstating.named.name_injective (hstating.known t ht a ha) (hstating.known u hu b hb) heq
  · unfold read
    dsimp only
    rw [String.toList_ofList, documentText_eq, hparse]
    dsimp only [Option.filter]
    rw [hdocumentRead]

/-! ## Written terms -/

/-- An IRI between angle brackets, as characters. -/
theorem toList_writtenIri (i : Iri) : i.written.toList = '<' :: (i.text.toList ++ ['>']) := by
  simp [Iri.written]

/-- The part of an IRI is what is written for it. -/
theorem iriPart_text (ns : Namespaces) (i : Iri) :
    (iriPart ns i).text = (writeIri ns i).toList := by
  unfold iriPart writeIri
  cases abbreviation? ns i with
  | some parts => simp
  | none => exact (toList_writtenIri i).symm

/-- A lexical form between double quotes, as characters. -/
theorem toList_quoted (l : Literal) : l.quoted.toList = quotedText l.value := by
  simp [Literal.quoted, quotedText]

/-- The part of a literal is what is written for it. -/
theorem literalPart_text (ns : Namespaces) (l : Literal) :
    (literalPart ns l).text = (writeTerm ns (.literal l)).toList := by
  unfold literalPart writeTerm
  split
  · rename_i h
    simp [Literal.written, h, toList_quoted]
  · rename_i h
    simp [Literal.written, h, toList_quoted]
  · rename_i h
    simp [h, toList_quoted, iriPart_text]

/-- The part of a term is what is written for it. -/
theorem termPart_text (ns : Namespaces) (t : Term) :
    (termPart ns t).text = (writeTerm ns t).toList := by
  cases t with
  | iri i => exact iriPart_text ns i
  | blank b => simp [termPart, writeTerm, BlankNode.written]
  | literal l => exact literalPart_text ns l

/-- The part of a predicate is what is written for it. -/
theorem verbPart_text (ns : Namespaces) (predicate : Iri) :
    (verbPart ns true predicate).text = (writePredicate ns predicate).toList := by
  unfold verbPart writePredicate
  by_cases h : predicate = Vocabulary.rdfType
  · rw [if_pos ⟨rfl, h⟩, if_pos h]
    rfl
  · rw [if_neg fun hboth => h hboth.2, if_neg h]
    exact iriPart_text ns predicate

/-! ## Written lines -/

/-- Without prefixes an IRI is written in full. -/
theorem writeIri_empty (i : Iri) : writeIri Namespaces.empty i = i.written := rfl

/-- Without prefixes a term is written in full. -/
theorem writeTerm_empty (t : Term) : writeTerm Namespaces.empty t = t.written := by
  cases t with
  | iri i => rfl
  | blank b => rfl
  | literal l =>
    obtain ⟨value, kind⟩ := l
    cases kind <;> rfl

/-- A triple on its own. -/
def linePassage (t : Triple) : Passage := ⟨t.subject, ⟨t.predicate, t.object, []⟩, []⟩

/-- The passage of a triple has no other triples. -/
theorem triples_linePassage (t : Triple) : (linePassage t).triples = [t] := rfl

/-- The block of a triple on its own is its line. -/
theorem text_linePassage (t : Triple) :
    ((linePassage t).block Namespaces.empty false).statement.text = (t.written ++ "\n").toList := by
  have hverb : (verbPart Namespaces.empty false t.predicate).text = t.predicate.written.toList := by
    rw [verbPart, if_neg (fun h => Bool.false_ne_true h.1), iriPart_text, writeIri_empty]
  simp [linePassage, Passage.block, Clause.property, Block.statement, Block.text, Property.text,
    termPart_text, writeTerm_empty, hverb, Triple.written]

end RdfStore.Turtle
