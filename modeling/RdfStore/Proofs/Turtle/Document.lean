import RdfStore.Proofs.Turtle.Parts

/-!
# Written documents that are parsed

A document is made of statements: declarations of prefixes, and blocks of triples, in which a
semicolon separates the verbs of a subject and a comma the objects of a verb. If every part of a
document fits its place and no block starts like a directive, the whole document is parsed, and
its nodes are those of its statements.
-/

set_option autoImplicit false

namespace RdfStore.Turtle

open RdfStore.Peg RdfStore.Syntax

/-- A verb with its objects. -/
structure Property where
  verb : Part
  object : Part
  others : List Part

/-- A subject with its properties. -/
structure Block where
  subject : Part
  property : Property
  others : List Property

namespace Property

/-- The text of a verb with its objects. -/
def text (p : Property) : List Char :=
  p.verb.text ++ ' ' :: (p.object.text ++ p.others.flatMap fun o => ',' :: ' ' :: o.text)

/-- The nodes of a verb with its objects. -/
def nodes (p : Property) : List (Outline Symbol) :=
  [p.verb.node, .node .objectList [] (p.object.node :: p.others.map Part.node)]

/-- Every part of a property fits its place. -/
structure Fits (p : Property) : Prop where
  verb : p.verb.Fits Symbol.verb IsDelimited
  object : p.object.Fits Symbol.object EndsObject
  others : ∀ o ∈ p.others, o.Fits Symbol.object EndsObject

end Property

namespace Block

/-- The text of a block without its end. -/
def text (b : Block) : List Char :=
  b.subject.text ++ ' ' ::
    (b.property.text ++ b.others.flatMap fun p => " ;\n    ".toList ++ p.text)

/-- The nodes of the properties of a block. -/
def nodes (b : Block) : List (Outline Symbol) :=
  b.property.nodes ++ b.others.flatMap Property.nodes

/-- The statement that a block makes. -/
def statement (b : Block) : Part :=
  ⟨b.text ++ " .\n".toList,
    .node .triples [] [b.subject.node, .node .predicateObjectList [] b.nodes]⟩

/-- Every part of a block fits its place. -/
structure Fits (b : Block) : Prop where
  subject : b.subject.Fits Symbol.subject IsDelimited
  property : b.property.Fits
  others : ∀ p ∈ b.others, p.Fits

end Block

/-- The statement that declares a prefix. -/
def declaration (name iri : List Char) : Part where
  text := "@prefix".toList ++ ' ' :: (name ++ ':' :: ' ' :: '<' :: (iri ++ ['>', ' ', '.', '\n']))
  node := .node .prefixDirective [] [prefixOutline .terminal name, iriOutline .terminal iri]

/-- A declaration before a text. -/
theorem declaration_append (name iri rest : List Char) :
    (declaration name iri).text ++ rest = "@prefix".toList ++ ' ' ::
      (name ++ ':' :: ' ' :: '<' :: (iri ++ '>' :: ' ' :: '.' :: '\n' :: rest)) := by
  show ("@prefix".toList ++ ' ' ::
    (name ++ ':' :: ' ' :: '<' :: (iri ++ ['>', ' ', '.', '\n']))) ++ rest = _
  simp

/-! ## Blocks -/

section Blocks

variable {rest : List Char}

/-- What ends the objects of a verb: no comma comes next. -/
inductive EndsProperty : List Char → Prop where
  | semicolon (rest : List Char) : EndsProperty (' ' :: ';' :: rest)
  | dot (rest : List Char) : EndsProperty (' ' :: '.' :: rest)

/-- What ends the objects of a verb ends the last of them. -/
theorem EndsProperty.endsObject (h : EndsProperty rest) : EndsObject rest := by
  cases h with
  | semicolon rest => exact .semicolon rest
  | dot rest => exact .dot rest

/-- No other object follows the end of a property. -/
theorem EndsProperty.refuses_comma (h : EndsProperty rest) :
    Refuses grammar .words (.seq (.one ',') Symbol.object) (wordsOf rest) := by
  cases h with
  | semicolon rest => exact refuses_of_head rfl rfl _
  | dot rest => exact refuses_of_head rfl rfl _

/-- After an object and a text of more objects, another object or the end follows. -/
theorem endsObject_flatMap (others : List Part) (hrest : EndsProperty rest) :
    EndsObject ((others.flatMap fun o => ',' :: ' ' :: o.text) ++ rest) := by
  cases others with
  | nil => exact hrest.endsObject
  | cons o others => exact .comma _

/-- The objects after the first one are read up to the end of the property. -/
theorem chain_objects {others : List Part}
    (h : ∀ o ∈ others, o.Fits Symbol.object EndsObject) (hrest : EndsProperty rest) :
    Chain grammar (.seq (.one ',') Symbol.object)
      (wordsOf ((others.flatMap fun o => ',' :: ' ' :: o.text) ++ rest)) (others.map Part.node)
      (wordsOf rest) := by
  induction others with
  | nil => exact hrest.refuses_comma.chain
  | cons o others ih =>
    have hfirst := h o List.mem_cons_self
    have hmore := ih fun p hp => h p (List.mem_cons_of_mem o hp)
    rw [List.flatMap_cons, List.append_assoc, List.cons_append, List.cons_append,
      wordsOf_cons rfl]
    have hcomma : Leads grammar (.one ',')
        (',' :: ' ' :: (o.text ++ ((others.flatMap fun o => ',' :: ' ' :: o.text) ++ rest))) []
        (o.text ++ ((others.flatMap fun o => ',' :: ' ' :: o.text) ++ rest)) :=
      (reads_one ',' _).leads (hfirst.wordsOf_eq _)
    have hobject := hfirst.leads _ (endsObject_flatMap others hrest)
    exact (hcomma.seq hobject).chain hmore

/-- A verb and its objects are read up to the end of the property. -/
theorem leads_property {p : Property} (h : p.Fits) (hrest : EndsProperty rest) :
    Leads grammar Symbol.verbObjects (p.text ++ rest) p.nodes (wordsOf rest) := by
  have htext : p.text ++ rest = p.verb.text ++ ' ' ::
      (p.object.text ++ ((p.others.flatMap fun o => ',' :: ' ' :: o.text) ++ rest)) := by
    simp only [Property.text, List.append_assoc, List.cons_append]
  have hverb := h.verb.leads (' ' :: (p.object.text ++
    ((p.others.flatMap fun o => ',' :: ' ' :: o.text) ++ rest))) ⟨' ', _, rfl, Or.inl rfl⟩
  have hfirst := h.object.leads _ (endsObject_flatMap p.others hrest)
  have hothers := (chain_objects h.others hrest).star (wordsOf_wordsOf _)
  rw [htext]
  refine hverb.seq ?_
  show Leads grammar (.rule .objectList) (wordsOf (p.object.text ++ _)) _ _
  rw [h.object.wordsOf_eq]
  exact Leads.rule_words rfl (hfirst.seq hothers)

/-- After a property and a text of more properties, another property or the end follows. -/
theorem endsProperty_flatMap (others : List Property) (rest : List Char) :
    EndsProperty
      ((others.flatMap fun p => " ;\n    ".toList ++ p.text) ++ ' ' :: '.' :: rest) := by
  cases others with
  | nil => exact .dot rest
  | cons p others => exact .semicolon _

/-- A property starts with the word of its verb. -/
theorem Property.Fits.wordsOf_eq {p : Property} (h : p.Fits) (rest : List Char) :
    wordsOf (p.text ++ rest) = p.text ++ rest := by
  rw [Property.text, List.append_assoc, h.verb.wordsOf_eq]

/-- The properties after the first one are read up to the end of the block. -/
theorem chain_properties {others : List Property} (h : ∀ p ∈ others, p.Fits)
    (rest : List Char) :
    Chain grammar (.seq (.one ';') (.opt Symbol.verbObjects))
      (wordsOf ((others.flatMap fun p => " ;\n    ".toList ++ p.text) ++ ' ' :: '.' :: rest))
      (others.flatMap Property.nodes) ('.' :: rest) := by
  induction others with
  | nil => exact Refuses.chain (refuses_of_head rfl rfl rest)
  | cons p others ih =>
    have hfirst := h p List.mem_cons_self
    have hmore := ih fun q hq => h q (List.mem_cons_of_mem p hq)
    have hproperty := leads_property hfirst (endsProperty_flatMap others rest)
    rw [List.flatMap_cons, List.append_assoc, List.flatMap_cons]
    generalize (others.flatMap fun p => " ;\n    ".toList ++ p.text) ++ ' ' :: '.' :: rest = more
      at hmore hproperty ⊢
    have htext : wordsOf (" ;\n    ".toList ++ p.text ++ more) =
        ';' :: '\n' :: ' ' :: ' ' :: ' ' :: ' ' :: (p.text ++ more) := rfl
    -- a line break and four blanks stand between the semicolon and the verb
    have hwords : wordsOf ('\n' :: ' ' :: ' ' :: ' ' :: ' ' :: (p.text ++ more)) =
        p.text ++ more := by
      rw [wordsOf_blank rfl, wordsOf_blank rfl, wordsOf_blank rfl, wordsOf_blank rfl,
        wordsOf_blank rfl, hfirst.wordsOf_eq]
    have hsemicolon : Leads grammar (.one ';')
        (';' :: '\n' :: ' ' :: ' ' :: ' ' :: ' ' :: (p.text ++ more)) [] (p.text ++ more) :=
      (reads_one ';' _).leads hwords
    rw [htext]
    exact (hsemicolon.seq hproperty.opt).chain hmore

/-- A block is read up to its dot. -/
theorem leads_block {b : Block} (h : b.Fits) (rest : List Char) :
    Leads grammar (.rule .triples) (b.text ++ ' ' :: '.' :: rest) [b.statement.node]
      ('.' :: rest) := by
  have htext : b.text ++ ' ' :: '.' :: rest = b.subject.text ++ ' ' :: (b.property.text ++
      ((b.others.flatMap fun p => " ;\n    ".toList ++ p.text) ++ ' ' :: '.' :: rest)) := by
    simp only [Block.text, List.append_assoc, List.cons_append]
  have hfirst := leads_property h.property (endsProperty_flatMap b.others rest)
  have hothers := (chain_properties h.others rest).star (wordsOf_wordsOf _)
  have hstart := h.property.wordsOf_eq
    ((b.others.flatMap fun p => " ;\n    ".toList ++ p.text) ++ ' ' :: '.' :: rest)
  rw [htext]
  generalize (b.others.flatMap fun p => " ;\n    ".toList ++ p.text) ++ ' ' :: '.' :: rest = more
    at hfirst hothers hstart ⊢
  have hlist : Refuses grammar .words (.rule .blankNodePropertyList)
      (b.subject.text ++ ' ' :: (b.property.text ++ more)) := by
    obtain ⟨c, cs, hc, -, hbracket⟩ := h.subject.starts
    rw [hc]
    exact Refuses.rule (refuses_one hbracket _).seq
  have hsubject := h.subject.leads (' ' :: (b.property.text ++ more)) ⟨' ', _, rfl, Or.inl rfl⟩
  rw [wordsOf_blank rfl, hstart] at hsubject
  have hproperties : Leads grammar (.rule .predicateObjectList) (b.property.text ++ more)
      [.node .predicateObjectList [] b.nodes] ('.' :: rest) :=
    Leads.rule_words rfl (hfirst.seq hothers)
  exact Leads.rule_words rfl (Leads.choice_right hlist.seq (hsubject.seq hproperties))

end Blocks

/-! ## Statements -/

/-- A block that does not start like a directive is read as a statement. -/
theorem fits_block {b : Block} (h : b.Fits)
    (hdirective : ∀ rest, Refuses grammar .words Symbol.directive (b.text ++ rest)) :
    b.statement.Fits Symbol.statement fun _ => True := by
  obtain ⟨c, cs, hc, hstart⟩ := h.subject.starts
  refine ⟨⟨c, _, by rw [Block.statement, Block.text, hc]; rfl, hstart⟩, fun rest _ => ?_⟩
  have htext : b.statement.text ++ rest = b.text ++ ' ' :: '.' :: '\n' :: rest := by
    rw [Block.statement, List.append_assoc]
    rfl
  have hdot : Leads grammar (.one '.') ('.' :: '\n' :: rest) [] (wordsOf rest) :=
    (reads_one '.' _).leads (wordsOf_blank rfl rest)
  rw [htext]
  exact Leads.choice_right (hdirective _) ((leads_block h ('\n' :: rest)).seq hdot)

/-- The declaration of a prefix is read as a statement. -/
theorem fits_declaration {name iri : List Char} (hname : IsPrefixName name)
    (hiri : ∀ c ∈ iri, isIriChar c = true) :
    (declaration name iri).Fits Symbol.statement fun _ => True := by
  refine ⟨⟨'@', _, rfl, rfl, by decide⟩, fun rest _ => ?_⟩
  have hkeyword : Leads grammar (.lit "@prefix") ("@prefix".toList ++ ' ' ::
      (name ++ ':' :: ' ' :: '<' :: (iri ++ '>' :: ' ' :: '.' :: '\n' :: rest))) []
      (name ++ ':' :: ' ' :: '<' :: (iri ++ '>' :: ' ' :: '.' :: '\n' :: rest)) := by
    refine (reads_text "@prefix".toList _).leads ?_
    exact (wordsOf_blank rfl _).trans (wordsOf_nameChars (isNameChar_of_mem_prefixName hname) _)
  have hspace : Leads grammar (.rule (.terminal .prefixedSpace))
      (name ++ ':' :: ' ' :: '<' :: (iri ++ '>' :: ' ' :: '.' :: '\n' :: rest))
      [prefixOutline .terminal name] ('<' :: (iri ++ '>' :: ' ' :: '.' :: '\n' :: rest)) :=
    (reads_prefixedSpace hasTokens (by decide) hname _).leads rfl
  have hreference : Leads grammar (.rule (.terminal .iriRef))
      ('<' :: (iri ++ '>' :: ' ' :: '.' :: '\n' :: rest)) [iriOutline .terminal iri]
      ('.' :: '\n' :: rest) := (reads_iriRef hasTokens hiri _).leads rfl
  have hdot : Leads grammar (.one '.') ('.' :: '\n' :: rest) [] (wordsOf rest) :=
    (reads_one '.' _).leads (wordsOf_blank rfl rest)
  have hrule : Leads grammar (.rule .prefixDirective) ("@prefix".toList ++ ' ' ::
      (name ++ ':' :: ' ' :: '<' :: (iri ++ '>' :: ' ' :: '.' :: '\n' :: rest)))
      [(declaration name iri).node] (wordsOf rest) :=
    Leads.rule_words rfl (hkeyword.seq (hspace.seq (hreference.seq hdot)))
  rw [declaration_append]
  exact hrule.choice_left.choice_left

/-! ## Documents -/

/-- Statements are read one after the other. -/
theorem chain_statements {parts : List Part} {tail next : List Char}
    {nodes : List (Outline Symbol)} (h : ∀ p ∈ parts, p.Fits Symbol.statement fun _ => True)
    (htail : Chain grammar Symbol.statement (wordsOf tail) nodes next) :
    Chain grammar Symbol.statement (wordsOf (parts.flatMap Part.text ++ tail))
      (parts.map Part.node ++ nodes) next := by
  induction parts with
  | nil => exact htail
  | cons p parts ih =>
    have hfirst := h p List.mem_cons_self
    have hmore := ih fun q hq => h q (List.mem_cons_of_mem p hq)
    rw [List.flatMap_cons, List.append_assoc, hfirst.wordsOf_eq]
    exact (hfirst.leads _ trivial).chain hmore

/-- At the end of the text nothing is read. -/
theorem refuses_end {e : Expr Symbol} (h : e.peek (grammar.peek none 4) none = .fails) :
    Refuses grammar .words e [] :=
  refuses_of_peek (fun _ => rfl) 4 h

section Documents

variable {declarations blocks : List Part} {gap : List Char}

/-- The statements of a document are read up to a text of which the statements are known. -/
theorem leads_statements (hdeclarations : ∀ p ∈ declarations, p.Fits Symbol.statement fun _ => True)
    (hgap : ∀ cs, wordsOf (gap ++ cs) = wordsOf cs)
    (hblocks : ∀ p ∈ blocks, p.Fits Symbol.statement fun _ => True) {tail next : List Char}
    {nodes : List (Outline Symbol)}
    (htail : Chain grammar Symbol.statement (wordsOf tail) nodes next) :
    Leads grammar (.star Symbol.statement)
      (wordsOf (declarations.flatMap Part.text ++ (gap ++ (blocks.flatMap Part.text ++ tail))))
      (declarations.map Part.node ++ (blocks.map Part.node ++ nodes)) next := by
  have hstatements := chain_statements hblocks htail
  rw [← hgap] at hstatements
  exact (chain_statements hdeclarations hstatements).star (wordsOf_wordsOf _)

/-- A document of declarations, blanks and blocks is parsed into their nodes. -/
theorem parse_document
    (hdeclarations : ∀ p ∈ declarations, p.Fits Symbol.statement fun _ => True)
    (hgap : ∀ cs, wordsOf (gap ++ cs) = wordsOf cs)
    (hblocks : ∀ p ∈ blocks, p.Fits Symbol.statement fun _ => True) :
    ∃ trees, parseDocument (declarations.flatMap Part.text ++ (gap ++ blocks.flatMap Part.text)) =
        .ok trees ∧
      grammar.outlines trees = [.node .document [] (declarations.map Part.node ++
        (blocks.map Part.node ++ [.node .endOfText [] []]))] := by
  have hend : Chain grammar Symbol.statement (wordsOf []) [] [] := (refuses_end rfl).chain
  have hall := leads_statements hdeclarations hgap hblocks hend
  rw [List.append_nil, List.append_nil] at hall
  have hlast : Leads grammar (.rule .endOfText) [] [.node .endOfText [] []] [] :=
    Leads.rule_words rfl ((refuses_end rfl).notAhead.leads rfl)
  have hdocument := Leads.rule_words (r := Symbol.document) rfl
    (((reads_nothing _).leads rfl).seq (hall.seq hlast))
  obtain ⟨rest, hread, -⟩ := hdocument
  rw [List.nil_append, List.append_assoc] at hread
  exact hread.parse isGuarded_grammar

/-- A document in which statements end before the text does is not parsed. -/
theorem parse_document_error
    (hdeclarations : ∀ p ∈ declarations, p.Fits Symbol.statement fun _ => True)
    (hgap : ∀ cs, wordsOf (gap ++ cs) = wordsOf cs)
    (hblocks : ∀ p ∈ blocks, p.Fits Symbol.statement fun _ => True) {tail next : List Char}
    {nodes : List (Outline Symbol)}
    (htail : Chain grammar Symbol.statement (wordsOf tail) nodes next) (hnext : next ≠ []) :
    ∃ index, parseDocument
      (declarations.flatMap Part.text ++ (gap ++ (blocks.flatMap Part.text ++ tail))) =
        .error index := by
  have hall := leads_statements hdeclarations hgap hblocks htail
  have hlast : Refuses grammar .words (.rule .endOfText) next := by
    cases next with
    | nil => exact absurd rfl hnext
    | cons c rest =>
      have hany : Reads grammar .words .any (c :: rest) [] rest := reads_char rfl rest
      exact Refuses.rule hany.notAhead_refuses
  have hdocument : Refuses grammar .words (.rule .document)
      (declarations.flatMap Part.text ++ (gap ++ (blocks.flatMap Part.text ++ tail))) :=
    Refuses.rule (((reads_nothing _).leads rfl).seq_refuses (hall.seq_refuses hlast))
  exact hdocument.parse isGuarded_grammar

end Documents

end RdfStore.Turtle
