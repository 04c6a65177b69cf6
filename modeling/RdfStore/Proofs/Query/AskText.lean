import RdfStore.Proofs.Query.Guarded
import RdfStore.Query.Reader

/-!
# Texts that ask for triples

A text asks for what stands between the braces after `ASK`. It is parsed if the content of the
group is read up to the closing brace, and it is read as the elements of that content. A triple is
read as a statement with one verb, which is a path of a single IRI, and one object.
-/

set_option autoImplicit false

namespace RdfStore.Query

open RdfStore.Peg RdfStore.Syntax RdfStore.Text
open RdfStore.Turtle (wordsOf wordsOf_cons wordsOf_blank wordsOf_wordsOf isWordStart)

/-! ## Parsing -/

section Parsing

variable {cs next : List Char}

/-- Where an expression ends, no blanks follow. -/
theorem wordsOf_of_leads {e : Phrase} {nodes : List (Outline Symbol)}
    (h : Leads grammar e cs nodes next) : wordsOf next = next := by
  obtain ⟨rest, -, rfl⟩ := h
  exact wordsOf_wordsOf rest

/-- A list with separators is its first item where no separator follows. -/
theorem leads_separated {item : Phrase} {c : Char} {nodes : List (Outline Symbol)}
    (h : Leads grammar item cs nodes next) (hnext : next.head? ≠ some c) :
    Leads grammar (Symbol.separated (.one c) item) cs nodes next := by
  have hstop : Chain grammar (.seq (.one c) item) next [] next :=
    (refuses_one_of_head hnext).seq.chain
  have hread := h.seq (hstop.star (wordsOf_of_leads h))
  rwa [List.append_nil] at hread

/-- The node of a verb that is an IRI, with the nodes of what repeats it. -/
def pathOutline (content : List Char) (repeats : List (Outline Symbol)) : Outline Symbol :=
  .node .path [] [.node .pathSequence [] [.node .pathElement []
    (.node .pathPrimary [] [iriOutline .terminal content] :: repeats)]]

/-- An IRI between angle brackets is read as a path, with what repeats it. -/
theorem leads_path {content rest : List Char} {repeats : List (Outline Symbol)}
    (h : ∀ c ∈ content, isIriChar c = true)
    (hrepeat : Leads grammar (.opt (.rule .pathRepeat)) (wordsOf rest) repeats next)
    (hslash : next.head? ≠ some '/') (hbar : next.head? ≠ some '|') :
    Leads grammar (.rule .path) ('<' :: (content ++ '>' :: rest)) [pathOutline content repeats]
      next := by
  have hinverse : Leads grammar (.opt (.rule .pathInverse)) ('<' :: (content ++ '>' :: rest)) []
      ('<' :: (content ++ '>' :: rest)) :=
    (refuses_of_head rfl rfl _).leads_opt (wordsOf_cons rfl _)
  have hiri : Leads grammar Symbol.iri ('<' :: (content ++ '>' :: rest))
      [iriOutline .terminal content] (wordsOf rest) :=
    ((reads_iriRef hasTokens h rest).leads rfl).choice_left
  have hprimary : Leads grammar (.rule .pathPrimary) ('<' :: (content ++ '>' :: rest))
      [.node .pathPrimary [] [iriOutline .terminal content]] (wordsOf rest) :=
    Leads.rule_words rfl hiri.choice_left
  have helement : Leads grammar (.rule .pathElement) ('<' :: (content ++ '>' :: rest))
      [.node .pathElement [] (.node .pathPrimary [] [iriOutline .terminal content] :: repeats)]
      next := Leads.rule_words rfl (hinverse.seq (hprimary.seq hrepeat))
  have hsequence := Leads.rule_words (r := Symbol.pathSequence) rfl (leads_separated helement hslash)
  exact Leads.rule_words rfl (leads_separated hsequence hbar)

/-- The node of a statement with one verb and one object. -/
def statementOutline (subject verb object : Outline Symbol) : Outline Symbol :=
  .node .sameSubject [] [subject, .node .propertyList [] [verb, .node .objectList [] [object]]]

/-- A subject, an IRI for a verb and an object are read as a statement. -/
theorem leads_statement {content rest objectText : List Char} {subject verb object : Outline Symbol}
    (hsubject : Leads grammar Symbol.variableOrTerm cs [subject] ('<' :: (content ++ '>' :: rest)))
    (hverb : Leads grammar (.rule .path) ('<' :: (content ++ '>' :: rest)) [verb] objectText)
    (hobject : Leads grammar Symbol.graphNode objectText [object] next)
    (hcomma : next.head? ≠ some ',') (hsemicolon : next.head? ≠ some ';') :
    Leads grammar (.rule .sameSubject) cs [statementOutline subject verb object] next := by
  have hvar : Refuses grammar .words (.rule .var) ('<' :: (content ++ '>' :: rest)) :=
    refuses_of_head rfl rfl _
  have hobjects := Leads.rule_words (r := Symbol.objectList) rfl (leads_separated hobject hcomma)
  have hstop : Chain grammar (.seq (.one ';') (.opt Symbol.verbObjects)) next [] next :=
    (refuses_one_of_head hsemicolon).seq.chain
  have hproperties := Leads.rule_words (r := Symbol.propertyList) rfl
    (((Leads.choice_right hvar hverb).seq hobjects).seq (hstop.star (wordsOf_of_leads hobject)))
  exact Leads.rule_words rfl (hsubject.seq hproperties).choice_left

/-! ### Forms -/

/-- The node of a group with the given content. -/
def groupOutline (content : List (Outline Symbol)) : Outline Symbol :=
  .node .group [] [.node .groupContent [] content]

/-- The content of a group is read up to the brace that ends the text. -/
theorem leads_group {content : List (Outline Symbol)}
    (hsubquery : Refuses grammar .words (.rule .selectClause) (wordsOf cs))
    (h : Leads grammar (.rule .groupContent) (wordsOf cs) [.node .groupContent [] content]
      ['\x7d']) : Leads grammar (.rule .group) ('\x7b' :: cs) [groupOutline content] [] := by
  have hopen : Leads grammar (.one '\x7b') ('\x7b' :: cs) [] (wordsOf cs) :=
    (reads_one _ cs).leads rfl
  have hclose : Leads grammar (.one '\x7d') ['\x7d'] [] [] := (reads_one _ []).leads rfl
  have hnested : Refuses grammar .words (.rule .subquery) (wordsOf cs) :=
    Refuses.rule hsubquery.seq
  exact Leads.rule_words rfl (hopen.seq ((Leads.choice_right hnested h).seq hclose))

/-- A text may end without modifiers. -/
theorem leads_noModifiers : Leads grammar (.rule .modifiers) [] [.node .modifiers [] []] [] := by
  have hnone : ∀ item ∈ [.rule .groupClause, .rule .havingClause, .rule .orderClause, Symbol.slice],
      Leads grammar (.opt item) [] [] [] := by
    intro item hitem
    have hpeek : ∀ item ∈ [.rule .groupClause, .rule .havingClause, .rule .orderClause,
        Symbol.slice], item.peek (grammar.peek none 6) none = .fails := by decide
    exact (refuses_end (hpeek item hitem)).leads_opt rfl
  exact Leads.rule_words rfl ((hnone _ (by simp)).seq ((hnone _ (by simp)).seq
    ((hnone _ (by simp)).seq (hnone _ (by simp)))))

/-- The forms of a text. -/
def forms : Phrase :=
  .choices [.rule .selectQuery, .rule .constructQuery, .rule .askQuery, .rule .describeQuery,
    .rule .update]

/-- The nodes of a text without declarations. -/
def formOutlines (form : Outline Symbol) : List (Outline Symbol) :=
  [.node .prologue [] [], form, .node .endOfText [] []]

/-- A text is parsed if a form is read up to its end. -/
theorem parse_form {c : Char} {form : Outline Symbol} (hword : isWordStart c = true)
    (hdeclaration : Refuses grammar .words
      (.choice (.rule .baseDeclaration) (.rule .prefixDeclaration)) (c :: cs))
    (h : Leads grammar forms (c :: cs) [form] []) :
    ∃ trees, parseQuery (c :: cs) = .ok trees ∧
      grammar.outlines trees = [.node .query [] (formOutlines form)] := by
  have hprologue := Leads.rule_words (r := Symbol.prologue) rfl
    (hdeclaration.chain.star (wordsOf_cons hword cs))
  have hvalues : Leads grammar (.opt (.rule .valuesClause)) [] [] [] :=
    (refuses_end rfl).leads_opt rfl
  have hend : Leads grammar (.rule .endOfText) [] [.node .endOfText [] []] [] :=
    Leads.rule_words rfl ((refuses_end rfl).notAhead.leads rfl)
  have hstart : Leads grammar .nothing (c :: cs) [] (c :: cs) :=
    (reads_nothing _).leads (wordsOf_cons hword cs)
  have hquery := Leads.rule_words (r := Symbol.query) rfl
    (hstart.seq (hprologue.seq (h.seq (hvalues.seq hend))))
  obtain ⟨rest, hread, -⟩ := hquery
  exact hread.parse isGuarded_grammar

/-- The node of a form that asks for the content of a group. -/
def askOutline (content : List (Outline Symbol)) : Outline Symbol :=
  .node .askQuery [] [.node .whereClause [] [groupOutline content], .node .modifiers [] []]

/-- A form that asks for a group is read if the content of the group is read up to the brace that
ends the text. -/
theorem leads_ask {content : List (Outline Symbol)}
    (hsubquery : Refuses grammar .words (.rule .selectClause) (wordsOf cs))
    (h : Leads grammar (.rule .groupContent) (wordsOf cs) [.node .groupContent [] content]
      ['\x7d']) :
    Leads grammar forms ('A' :: 'S' :: 'K' :: ' ' :: '\x7b' :: cs) [askOutline content] [] := by
  have hwhere := Leads.rule_words (r := Symbol.whereClause) rfl
    (((refuses_of_head rfl rfl cs).leads_opt (wordsOf_cons rfl cs)).seq (leads_group hsubquery h))
  have hdatasets : Chain grammar (.rule .dataset) ('\x7b' :: cs) [] ('\x7b' :: cs) :=
    (refuses_of_head rfl rfl cs).chain
  have hword : Reads grammar .words (.keyword "ASK") (['A', 'S', 'K'] ++ ' ' :: '\x7b' :: cs) []
      (' ' :: '\x7b' :: cs) := reads_word (by decide) _
  have hkeyword : Leads grammar (.keyword "ASK") ('A' :: 'S' :: 'K' :: ' ' :: '\x7b' :: cs) []
      ('\x7b' :: cs) :=
    hword.leads rfl
  have hask := Leads.rule_words (r := Symbol.askQuery) rfl
    (hkeyword.seq ((hdatasets.star (wordsOf_cons rfl cs)).seq (hwhere.seq leads_noModifiers)))
  have hselect : Refuses grammar .words (.rule .selectQuery)
      ('A' :: 'S' :: 'K' :: ' ' :: '\x7b' :: cs) := refuses_of_head rfl rfl _
  have hconstruct : Refuses grammar .words (.rule .constructQuery)
      ('A' :: 'S' :: 'K' :: ' ' :: '\x7b' :: cs) := refuses_of_head rfl rfl _
  exact Leads.choice_right hselect (Leads.choice_right hconstruct hask.choice_left)

end Parsing

/-! ## Reading a statement -/

section Statement

variable {scope : IriScope} {tree : Node}

/-- The grammar names its tokens as the walk does. -/
theorem terminal?_terminal (t : Terminal) : Symbol.terminal? (.terminal t) = some t := rfl

/-- The walk makes of the verb of a path without repetition its IRI. -/
theorem readVerb_eq {i : Iri} (h : i.IsWellFormed)
    (htree : grammar.outline tree = pathOutline i.text.toList []) :
    readVerb scope tree = pure (.term (.iri i)) := by
  obtain ⟨_, _, _, rfl, hpath, -⟩ := Grammar.eq_of_outline htree
  obtain ⟨sequence, rfl, hsequence⟩ := Grammar.eq_singleton_of_outlines hpath
  obtain ⟨_, _, _, rfl, helements, -⟩ := Grammar.eq_of_outline hsequence
  obtain ⟨element, rfl, helement⟩ := Grammar.eq_singleton_of_outlines helements
  obtain ⟨_, _, _, rfl, hprimaries, -⟩ := Grammar.eq_of_outline helement
  obtain ⟨primary, rfl, hprimary⟩ := Grammar.eq_singleton_of_outlines hprimaries
  obtain ⟨_, _, _, rfl, hiris, -⟩ := Grammar.eq_of_outline hprimary
  obtain ⟨iri, rfl, hiri⟩ := Grammar.eq_singleton_of_outlines hiris
  have hread : scope.iri Symbol.terminal? iri = .ok i :=
    hasTokens.iri_eq terminal?_terminal h hiri
  obtain ⟨_, _, _, rfl, -, -⟩ := Grammar.eq_of_outline hiri
  show (do return Place.term (.iri (← take (scope.iri Symbol.terminal? _)))) = _
  rw [hread]
  rfl

/-- The walk makes of a statement one pattern, unless it refuses the verb. -/
theorem readSameSubject_eq {subjectNode verbNode objectNode : Outline Symbol}
    {subject object : Place} {verb : Except Failure Place}
    (htree : grammar.outline tree = statementOutline subjectNode verbNode objectNode)
    (hsubject : ∀ tree, grammar.outline tree = subjectNode →
      readPlace scope false tree = pure (subject, []))
    (hverb : ∀ tree, grammar.outline tree = verbNode →
      readVerb scope tree = ExceptT.mk (pure verb))
    (hobject : ∀ tree, grammar.outline tree = objectNode →
      readPlace scope false tree = pure (object, [])) :
    readSameSubject scope false tree =
      ExceptT.mk (pure (verb.map fun predicate => [⟨subject, predicate, object⟩])) := by
  obtain ⟨_, _, _, rfl, hparts, -⟩ := Grammar.eq_of_outline htree
  obtain ⟨first, _, rfl, hfirst, hmore⟩ := Grammar.eq_cons_of_outlines hparts
  obtain ⟨properties, rfl, hproperties⟩ := Grammar.eq_singleton_of_outlines hmore
  obtain ⟨_, _, _, rfl, hitems, -⟩ := Grammar.eq_of_outline hproperties
  obtain ⟨path, _, rfl, hpath, hlists⟩ := Grammar.eq_cons_of_outlines hitems
  obtain ⟨list, rfl, hlist⟩ := Grammar.eq_singleton_of_outlines hlists
  obtain ⟨_, _, _, rfl, hobjects, -⟩ := Grammar.eq_of_outline hlist
  obtain ⟨last, rfl, hlast⟩ := Grammar.eq_singleton_of_outlines hobjects
  simp only [readSameSubject, ParseTree.children, hsubject first hfirst, readProperties,
    readVerbObjects, hverb path hpath, readObjects, hobject last hlast]
  cases verb <;> rfl

end Statement

/-! ## Reading a query -/

section Reading

variable {content : List (Outline Symbol)} {outcome : Except Failure (List Element)}

/-- The walk makes of a group what it makes of its content. -/
theorem readGroup_eq {scope : IriScope} {tree : Node}
    (htree : grammar.outline tree = groupOutline content)
    (hread : ∀ parts, grammar.outlines parts = content →
      readElements scope [] parts = ExceptT.mk (pure outcome)) :
    readFirstGroup scope [tree] = ExceptT.mk (pure (outcome.map Group.mk)) := by
  obtain ⟨_, _, _, rfl, hcontents, -⟩ := Grammar.eq_of_outline htree
  obtain ⟨groupContent, rfl, hcontent⟩ := Grammar.eq_singleton_of_outlines hcontents
  obtain ⟨_, _, parts, rfl, hparts, -⟩ := Grammar.eq_of_outline hcontent
  simp only [readFirstGroup, readGroup, hread parts hparts]
  cases outcome <;> rfl

/-- The query that asks for a group. -/
def asking (elements : List Element) : Query := ⟨.ask, .mk elements, .none, none⟩

/-- The walk makes of a form that asks for a group what it makes of the content of the group. -/
theorem readForm_ask {scope : IriScope} {tree : Node}
    (htree : grammar.outline tree = askOutline content)
    (hread : ∀ parts, grammar.outlines parts = content →
      readElements scope [] parts = ExceptT.mk (pure outcome)) :
    readForm scope none tree = ExceptT.mk (pure (outcome.map asking)) := by
  obtain ⟨_, _, _, rfl, hclauses, -⟩ := Grammar.eq_of_outline htree
  obtain ⟨whereClause, _, rfl, hwhere, hmore⟩ := Grammar.eq_cons_of_outlines hclauses
  obtain ⟨_, _, _, rfl, hgroups, -⟩ := Grammar.eq_of_outline hwhere
  obtain ⟨modifiers, rfl, hmodifiers⟩ := Grammar.eq_singleton_of_outlines hmore
  obtain ⟨_, _, _, rfl, hnone, -⟩ := Grammar.eq_of_outline hmodifiers
  obtain rfl := Grammar.eq_nil_of_outlines hnone
  obtain ⟨group, rfl, hgroup⟩ := Grammar.eq_singleton_of_outlines hgroups
  simp only [readForm, ParseTree.rule, ParseTree.children, List.foldlM_cons, List.foldlM_nil,
    readPart, readGroup_eq hgroup hread]
  cases outcome <;> rfl

/-- The walk makes of the nodes of a text without declarations what it makes of the form, if that
has no sort keys to look for. -/
theorem readParts_form {trees : List Node} {r : Symbol} {clauses : List (Outline Symbol)}
    {outcome : Except Failure Query}
    (htrees : grammar.outlines trees = formOutlines (.node r [] clauses))
    (hr : r ≠ .prologue ∧ r ≠ .valuesClause)
    (hread : ∀ tree, grammar.outline tree = .node r [] clauses →
      readForm (IriScope.ofBase none) none tree = ExceptT.mk (pure outcome))
    (hkeys : ∀ q, outcome = .ok q → unboundKey? q = none) :
    readParts trees = ExceptT.mk (pure outcome) := by
  obtain ⟨prologue, _, rfl, hprologue, hrest⟩ := Grammar.eq_cons_of_outlines htrees
  obtain ⟨first, blank, _, rfl, hdeclarations, -⟩ := Grammar.eq_of_outline hprologue
  obtain rfl := Grammar.eq_nil_of_outlines hdeclarations
  obtain ⟨form, _, rfl, hform, hends⟩ := Grammar.eq_cons_of_outlines hrest
  have hwalk := hread form hform
  obtain ⟨start, written, parts, rfl, -, -⟩ := Grammar.eq_of_outline hform
  obtain ⟨last, rfl, hlast⟩ := Grammar.eq_singleton_of_outlines hends
  obtain ⟨index, mark, inner, rfl, -, -⟩ := Grammar.eq_of_outline hlast
  have hchildren : ∀ s : Symbol, s = .prologue ∨ s = .valuesClause →
      (([.node .prologue first blank [], .node r start written parts,
          .node .endOfText index mark inner] : List Node).filter fun node =>
            node.rule == s).flatMap ParseTree.children = [] := by
    rintro s (rfl | rfl) <;> simp [ParseTree.rule, ParseTree.children, hr.1, hr.2]
  unfold readParts
  dsimp only
  rw [hchildren _ (.inl rfl), hchildren _ (.inr rfl)]
  show readForm (IriScope.ofBase none) none (.node r start written parts) >>= _ = _
  rw [hwalk]
  cases outcome with
  | error e => rfl
  | ok q =>
    have hpure : (ExceptT.mk (pure (.ok q)) : ReaderM Query) = pure q := rfl
    rw [hpure, pure_bind, hkeys q rfl]

/-- A text is read as its form, if that has no sort keys to look for. -/
theorem read_form {text : String} {c : Char} {cs : List Char} {r : Symbol}
    {clauses : List (Outline Symbol)} {outcome : Except Failure Query}
    (htext : text.toList = c :: cs) (hword : isWordStart c = true)
    (hdeclaration : Refuses grammar .words
      (.choice (.rule .baseDeclaration) (.rule .prefixDeclaration)) (c :: cs))
    (h : Leads grammar forms (c :: cs) [.node r [] clauses] [])
    (hr : r ≠ .prologue ∧ r ≠ .valuesClause)
    (hread : ∀ tree, grammar.outline tree = .node r [] clauses →
      readForm (IriScope.ofBase none) none tree = ExceptT.mk (pure outcome))
    (hkeys : ∀ q, outcome = .ok q → unboundKey? q = none) :
    read text = outcome.mapError (Failure.locate text.toList) := by
  obtain ⟨trees, hparse, htrees⟩ := parse_form hword hdeclaration h
  rw [← htext] at hparse
  obtain ⟨query, rfl, hquery⟩ := Grammar.eq_singleton_of_outlines htrees
  obtain ⟨_, _, _, rfl, hparts, -⟩ := Grammar.eq_of_outline hquery
  unfold read
  dsimp only
  rw [hparse]
  dsimp only
  rw [List.flatMap_singleton, ParseTree.children, readParts_form hparts hr hread hkeys]
  rfl

/-- A text that asks for a group is read as its content is. -/
theorem read_ask {text : String} {cs : List Char}
    (htext : text.toList = 'A' :: 'S' :: 'K' :: ' ' :: '\x7b' :: cs)
    (hsubquery : Refuses grammar .words (.rule .selectClause) (wordsOf cs))
    (h : Leads grammar (.rule .groupContent) (wordsOf cs) [.node .groupContent [] content]
      ['\x7d'])
    (hread : ∀ parts, grammar.outlines parts = content →
      readElements (IriScope.ofBase none) [] parts = ExceptT.mk (pure outcome)) :
    read text = (outcome.map asking).mapError (Failure.locate text.toList) := by
  refine read_form htext rfl (refuses_of_head rfl rfl _) (leads_ask hsubquery h) (by decide)
    (fun tree htree => readForm_ask htree hread) ?_
  intro q hq
  cases outcome with
  | error e => cases hq
  | ok elements =>
    cases hq
    rfl

end Reading

end RdfStore.Query
