import RdfStore.Proofs.Turtle.Passages

/-!
# Statements that start like directives

A statement is tried as a directive first, and the keyword `PREFIX` needs no blank behind it. A
subject that is written as a prefix alone is taken for the start of a declaration if the prefix
starts like the keyword and a verb between brackets comes next. No other subject is: either the
keyword is missing, or no prefix follows it, or no bracket follows the colon.
-/

set_option autoImplicit false

namespace RdfStore.Turtle

open RdfStore.Peg RdfStore.Syntax RdfStore.Text

/-- A name that consists of the keyword `PREFIX`, in either case, and a prefix. -/
def isDirectiveName (name : List Char) : Bool :=
  equalIgnoringCase (name.take 6) "PREFIX".toList && (name.drop 6).head?.all isNameBase

/-- Whether the written form of a triple starts like the declaration of a prefix: the subject is
written as such a name alone, and the predicate between brackets. -/
def looksLikeDirective (ns : Namespaces) (t : Triple) : Bool :=
  match t.subject with
  | .iri i =>
    (abbreviation? ns i).any (fun parts => parts.2 == "" && isDirectiveName parts.1.toList) &&
      decide (t.predicate ≠ Vocabulary.rdfType) && (abbreviation? ns t.predicate).isNone
  | .blank _ => false

variable {name rest : List Char} {ns : Namespaces}

/-! ## Keywords -/

/-- A text starts with a keyword if the characters in front of a colon do. -/
theorem equalIgnoringCase_take {chars : List Char}
    (hcolon : (chars.map asciiLower).contains ':' = false)
    (h : equalIgnoringCase ((name ++ ':' :: rest).take chars.length) chars = true) :
    equalIgnoringCase (name.take chars.length) chars = true := by
  by_cases hlength : chars.length ≤ name.length
  · rwa [List.take_append_of_le_length hlength] at h
  · -- the keyword is longer than the name, so it would have to contain the colon
    have hmem : ':' ∈ (name ++ ':' :: rest).take chars.length := by
      obtain ⟨k, hk⟩ : ∃ k, chars.length - name.length = k + 1 :=
        ⟨chars.length - name.length - 1, by omega⟩
      rw [List.take_append, hk, List.take_succ_cons]
      exact List.mem_append_right _ List.mem_cons_self
    have hlower : ':' ∈ chars.map asciiLower := by
      rw [← eq_of_beq h]
      exact List.mem_map.mpr ⟨':', hmem, rfl⟩
    rw [List.contains_iff_mem.mpr hlower] at hcolon
    cases hcolon

/-- The rest of a name consists of characters of names. -/
theorem isNameChar_of_mem_drop (hname : ∀ c ∈ name, isNameChar c = true) (n : Nat) :
    ∀ c ∈ name.drop n, isNameChar c = true :=
  fun c hc => hname c (List.mem_of_mem_drop hc)

section Keywords

variable {word : String} {n : Nat}

/-- A keyword at the start of a name is read, and the rest of the name comes next. -/
theorem leads_keyword (hname : ∀ c ∈ name, isNameChar c = true)
    (h : equalIgnoringCase (name.take n) word.toList = true) (rest : List Char) :
    Leads grammar (.keyword word) (name ++ ':' :: rest) [] (name.drop n ++ ':' :: rest) := by
  have hread : Reads grammar .words (.keyword word)
      (name.take n ++ (name.drop n ++ ':' :: rest)) [] (name.drop n ++ ':' :: rest) :=
    reads_word h _
  rw [← List.append_assoc, List.take_append_drop] at hread
  exact hread.leads (wordsOf_nameChars (isNameChar_of_mem_drop hname n) rest)

/-- Any other keyword is refused. -/
theorem refuses_keyword (h : equalIgnoringCase (name.take n) word.toList = false)
    (hn : word.toList.length = n) (hcolon : (word.toList.map asciiLower).contains ':' = false)
    (rest : List Char) :
    Refuses grammar .words (.keyword word) (name ++ ':' :: rest) := by
  refine refuses_word ?_
  rw [stripText?_word]
  refine if_neg fun htaken => ?_
  rw [← hn, equalIgnoringCase_take hcolon htaken] at h
  cases h

end Keywords

/-! ## Names in front of a colon -/

/-- A name and a colon start with characters of names and colons only. -/
theorem head_name {c : Char} (hc : isNameChar c = false) (hcolon : c ≠ ':')
    (hname : ∀ d ∈ name, isNameChar d = true) (rest : List Char) :
    (name ++ ':' :: rest).head? ≠ some c := by
  intro h
  cases name with
  | nil => exact hcolon (Option.some.inj h).symm
  | cons d ds =>
    have hd := hname d List.mem_cons_self
    rw [Option.some.inj h, hc] at hd
    cases hd

/-- Characters of names are a prefix if the first may start a name. -/
theorem isPrefixName_of_head (hname : ∀ c ∈ name, isNameChar c = true)
    (h : name.head?.all isNameBase = true) : IsPrefixName name := by
  cases name with
  | nil => exact Or.inl rfl
  | cons c cs => exact Or.inr ⟨c, cs, rfl, h, fun d hd => hname d (List.mem_cons_of_mem c hd)⟩

/-- A name and a colon are no declaration with the keyword `PREFIX`, unless the name is the
keyword and a prefix, and a bracket comes next. -/
theorem refuses_sparqlPrefix (hname : ∀ c ∈ name, isNameChar c = true)
    (h : isDirectiveName name = false ∨ (wordsOf rest).head? ≠ some '<') :
    Refuses grammar .words (.rule .sparqlPrefix) (name ++ ':' :: rest) := by
  cases hword : equalIgnoringCase (name.take 6) "PREFIX".toList with
  | false =>
    have hkeyword : Refuses grammar .words (.keyword "PREFIX") (name ++ ':' :: rest) :=
      refuses_keyword hword rfl rfl rest
    exact Refuses.rule hkeyword.seq
  | true =>
    have hkeyword : Leads grammar (.keyword "PREFIX") (name ++ ':' :: rest) []
        (name.drop 6 ++ ':' :: rest) := leads_keyword hname hword rest
    have hmore := isNameChar_of_mem_drop hname 6
    rw [isDirectiveName, hword, Bool.true_and] at h
    refine Refuses.rule (hkeyword.seq_refuses ?_)
    cases hhead : (name.drop 6).head?.all isNameBase with
    | true =>
      -- the prefix is read, and only a missing bracket stops the directive
      have hnext := h.resolve_left (by rw [hhead]; exact Bool.noConfusion)
      have hspace : Leads grammar (.rule (.terminal .prefixedSpace)) (name.drop 6 ++ ':' :: rest)
          [prefixOutline .terminal (name.drop 6)] (wordsOf rest) :=
        (reads_prefixedSpace hasTokens (by decide) (isPrefixName_of_head hmore hhead) rest).leads
          rfl
      exact hspace.seq_refuses (refuses_iriRef hasTokens hnext)
    | false =>
      -- what follows the keyword can stand in a name, but does not start one
      generalize name.drop 6 = more at hhead hmore ⊢
      cases more with
      | nil => cases hhead
      | cons c cs =>
        have hcolon : c ≠ ':' := by
          rintro rfl
          exact absurd (hmore _ List.mem_cons_self) (by decide)
        exact (refuses_prefixedSpace hasTokens hhead hcolon _).seq

/-- A name and a colon are no declaration of a base: no bracket can follow the keyword. -/
theorem refuses_sparqlBase (hname : ∀ c ∈ name, isNameChar c = true) (rest : List Char) :
    Refuses grammar .words (.rule .sparqlBase) (name ++ ':' :: rest) := by
  cases hword : equalIgnoringCase (name.take 4) "BASE".toList with
  | false =>
    have hkeyword : Refuses grammar .words (.keyword "BASE") (name ++ ':' :: rest) :=
      refuses_keyword hword rfl rfl rest
    exact Refuses.rule hkeyword.seq
  | true =>
    have hkeyword : Leads grammar (.keyword "BASE") (name ++ ':' :: rest) []
        (name.drop 4 ++ ':' :: rest) := leads_keyword hname hword rest
    have hnext := head_name (c := '<') rfl (by decide) (isNameChar_of_mem_drop hname 4) rest
    exact Refuses.rule (hkeyword.seq_refuses (refuses_iriRef hasTokens hnext))

/-- A name and a colon are no directive with an at sign. -/
theorem refuses_signed (hname : ∀ c ∈ name, isNameChar c = true) (rest : List Char) :
    Refuses grammar .words (.rule .prefixDirective) (name ++ ':' :: rest) ∧
      Refuses grammar .words (.rule .baseDirective) (name ++ ':' :: rest) := by
  have hsign := head_name (c := '@') rfl (by decide) hname rest
  have hprefixSign : Refuses grammar .words (.lit "@prefix") (name ++ ':' :: rest) :=
    refuses_text_of_head hsign
  have hbaseSign : Refuses grammar .words (.lit "@base") (name ++ ':' :: rest) :=
    refuses_text_of_head hsign
  exact ⟨Refuses.rule hprefixSign.seq, Refuses.rule hbaseSign.seq⟩

/-- A name and a colon are no directive, unless the name is the keyword `PREFIX` and a prefix, and
a bracket comes next. -/
theorem refuses_directive_name (hname : ∀ c ∈ name, isNameChar c = true)
    (h : isDirectiveName name = false ∨ (wordsOf rest).head? ≠ some '<') :
    Refuses grammar .words Symbol.directive (name ++ ':' :: rest) := by
  obtain ⟨hprefixed, hbased⟩ := refuses_signed hname rest
  exact hprefixed.choice (hbased.choice
    ((refuses_sparqlPrefix hname h).choice (refuses_sparqlBase hname rest)))

/-- The keyword and a prefix are read with an IRI between brackets as a declaration. -/
theorem leads_directive_name (hname : ∀ c ∈ name, isNameChar c = true)
    (h : isDirectiveName name = true) {iri next : List Char}
    (hiri : ∀ c ∈ iri, isIriChar c = true) (hrest : wordsOf rest = next) :
    Leads grammar Symbol.directive (name ++ ':' :: ' ' :: '<' :: (iri ++ '>' :: rest))
      [.node .sparqlPrefix []
        [prefixOutline .terminal (name.drop 6), iriOutline .terminal iri]] next := by
  obtain ⟨hword, hhead⟩ := Bool.and_eq_true_iff.mp h
  obtain ⟨hprefixed, hbased⟩ := refuses_signed hname (' ' :: '<' :: (iri ++ '>' :: rest))
  have hkeyword : Leads grammar (.keyword "PREFIX")
      (name ++ ':' :: ' ' :: '<' :: (iri ++ '>' :: rest)) []
      (name.drop 6 ++ ':' :: ' ' :: '<' :: (iri ++ '>' :: rest)) := leads_keyword hname hword _
  have hspace : Leads grammar (.rule (.terminal .prefixedSpace))
      (name.drop 6 ++ ':' :: ' ' :: '<' :: (iri ++ '>' :: rest))
      [prefixOutline .terminal (name.drop 6)] ('<' :: (iri ++ '>' :: rest)) :=
    (reads_prefixedSpace hasTokens (by decide)
      (isPrefixName_of_head (isNameChar_of_mem_drop hname 6) hhead) _).leads rfl
  have hreference : Leads grammar (.rule (.terminal .iriRef)) ('<' :: (iri ++ '>' :: rest))
      [iriOutline .terminal iri] next := (reads_iriRef hasTokens hiri rest).leads hrest
  have hrule : Leads grammar (.rule .sparqlPrefix)
      (name ++ ':' :: ' ' :: '<' :: (iri ++ '>' :: rest)) [.node .sparqlPrefix []
        [prefixOutline .terminal (name.drop 6), iriOutline .terminal iri]] next :=
    Leads.rule_words rfl (hkeyword.seq (hspace.seq hreference))
  exact Leads.choice_right hprefixed (Leads.choice_right hbased hrule.choice_left)

/-! ## Parts in front of other parts -/

/-- The first character of a word comes next. -/
theorem head_wordsOf {c d : Char} (hc : isWordStart c = true) (hne : c ≠ d) (rest : List Char) :
    (wordsOf (c :: rest)).head? ≠ some d := by
  rw [wordsOf_cons hc]
  exact fun h => hne (Option.some.inj h)

/-- No bracket comes next after a local name, even an empty one if none comes after it. -/
theorem head_localName {localName : List Char} (h : isSimpleLocalName localName = true)
    (hrest : localName = [] → (wordsOf rest).head? ≠ some '<') :
    (wordsOf (localName ++ rest)).head? ≠ some '<' := by
  cases localName with
  | nil => exact hrest rfl
  | cons c cs =>
    have hc := isNameChar_of_mem_local h c List.mem_cons_self
    refine head_wordsOf (isWordStart_of_isNameChar hc) ?_ _
    rintro rfl
    cases hc

/-- A written IRI is no directive, unless it is the keyword and a prefix, and a bracket comes
next. -/
theorem refuses_directive_iri {i : Iri} (hrest : ∀ name, abbreviation? ns i = some (name, "") →
      isDirectiveName name.toList = false ∨ (wordsOf rest).head? ≠ some '<') :
    Refuses grammar .words Symbol.directive ((iriPart ns i).text ++ rest) := by
  unfold iriPart
  split
  · rename_i name localName habbreviation
    obtain ⟨hwritable, -, -, -, hsimple⟩ := abbreviation?_eq_some habbreviation
    have htext : name.toList ++ ':' :: localName.toList ++ rest =
        name.toList ++ ':' :: (localName.toList ++ rest) := by
      rw [List.append_assoc, List.cons_append]
    have hnext : isDirectiveName name.toList = false ∨
        (wordsOf (localName.toList ++ rest)).head? ≠ some '<' := by
      cases hname : isDirectiveName name.toList with
      | false => exact Or.inl rfl
      | true =>
        refine Or.inr (head_localName hsimple fun hnil => ?_)
        obtain rfl : localName = "" := String.toList_inj.mp hnil
        refine (hrest name habbreviation).resolve_left ?_
        rw [hname]
        exact Bool.noConfusion
    rw [htext]
    exact refuses_directive_name (isNameChar_of_mem_prefixName (isPrefixName_of_writable hwritable))
      hnext
  · exact refuses_of_head rfl rfl _

/-- A written term is no directive, unless it is the keyword and a prefix, and a bracket comes
next. -/
theorem refuses_directive_term {t : Term} (hrest : ∀ i name, t = .iri i →
      abbreviation? ns i = some (name, "") →
      isDirectiveName name.toList = false ∨ (wordsOf rest).head? ≠ some '<') :
    Refuses grammar .words Symbol.directive ((termPart ns t).text ++ rest) := by
  cases t with
  | iri i => exact refuses_directive_iri fun name => hrest i name rfl
  | blank b => exact refuses_of_head rfl rfl _
  | literal l =>
    obtain ⟨cs, htext⟩ := List.head?_eq_some_iff.mp (head_literalPart ns l)
    show Refuses grammar .words Symbol.directive ((literalPart ns l).text ++ rest)
    rw [htext]
    exact refuses_of_head rfl rfl _

/-- A written predicate starts with a bracket only where nothing abbreviates it. -/
theorem head_verbPart {predicate : Iri}
    (h : predicate = Vocabulary.rdfType ∨ abbreviation? ns predicate ≠ none) (rest : List Char) :
    (wordsOf ((verbPart ns true predicate).text ++ rest)).head? ≠ some '<' := by
  unfold verbPart
  split
  · exact head_wordsOf rfl (by decide) rest
  · rename_i hkeyword
    unfold iriPart
    split
    · rename_i name localName habbreviation
      obtain ⟨hwritable, -⟩ := abbreviation?_eq_some habbreviation
      have hname := isNameChar_of_mem_prefixName (isPrefixName_of_writable hwritable)
      rw [List.append_assoc, List.cons_append, wordsOf_nameChars hname]
      exact head_name rfl (by decide) hname _
    · rename_i hnone
      exact absurd hnone (h.resolve_left fun heq => hkeyword ⟨rfl, heq⟩)

/-- After an object no bracket comes next. -/
theorem EndsObject.head_ne (h : EndsObject rest) : (wordsOf rest).head? ≠ some '<' := by
  cases h with
  | comma rest => exact head_wordsOf rfl (by decide) rest
  | semicolon rest => exact head_wordsOf (c := ';') rfl (by decide) rest
  | dot rest => exact head_wordsOf (c := '.') rfl (by decide) rest

/-- After an object, nothing can be said about it. -/
theorem EndsObject.refuses_properties (h : EndsObject rest) :
    Refuses grammar .words (.rule .predicateObjectList) (wordsOf rest) := by
  cases h with
  | comma rest => exact refuses_of_head rfl rfl rest
  | semicolon rest => exact refuses_of_head rfl rfl rest
  | dot rest => exact refuses_of_head rfl rfl rest

/-- An object at its place starts no statement. -/
theorem refuses_statement_object {t : Term} (ht : t.IsWellFormed) (hrest : EndsObject rest) :
    Refuses grammar .words Symbol.statement ((termPart ns t).text ++ rest) := by
  have hdirective : Refuses grammar .words Symbol.directive ((termPart ns t).text ++ rest) :=
    refuses_directive_term fun _ _ _ _ => Or.inr hrest.head_ne
  have hlist : Refuses grammar .words (.rule .blankNodePropertyList)
      ((termPart ns t).text ++ rest) := by
    obtain ⟨c, cs, htext, -, hbracket⟩ := (fits_object ns ht).starts
    rw [htext]
    exact Refuses.rule (refuses_one hbracket _).seq
  have hsubject : Refuses grammar .words (.seq Symbol.subject (.rule .predicateObjectList))
      ((termPart ns t).text ++ rest) := by
    have hread : ∀ s : Subject, s.IsWellFormed → s.toTerm = t →
        Refuses grammar .words (.seq Symbol.subject (.rule .predicateObjectList))
          ((termPart ns t).text ++ rest) := by
      rintro s hs rfl
      exact ((fits_subject ns hs).leads rest hrest.isDelimited).seq_refuses hrest.refuses_properties
    cases t with
    | iri i => exact hread (.iri i) ht rfl
    | blank b => exact hread (.blank b) ht rfl
    | literal l =>
      obtain ⟨cs, htext⟩ := List.head?_eq_some_iff.mp (head_literalPart ns l)
      rw [termPart, htext]
      exact refuses_of_head rfl rfl _
  exact hdirective.choice (Refuses.rule (hlist.seq.choice hsubject)).seq

/-! ## Passages -/

/-- A triple looks like a directive if its subject is written as the keyword and a prefix and its
predicate between brackets. -/
theorem looksLikeDirective_iff {t : Triple} : looksLikeDirective ns t = true ↔
    ∃ i name, t.subject = .iri i ∧ abbreviation? ns i = some (name, "") ∧
      isDirectiveName name.toList = true ∧ t.predicate ≠ Vocabulary.rdfType ∧
      abbreviation? ns t.predicate = none := by
  obtain ⟨subject, predicate, object⟩ := t
  cases subject with
  | blank b => exact ⟨nofun, fun ⟨_, _, h, _⟩ => nomatch h⟩
  | iri i =>
    cases habbreviation : abbreviation? ns i with
    | none => simp [looksLikeDirective, habbreviation]
    | some parts =>
      obtain ⟨name, localName⟩ := parts
      simp [looksLikeDirective, habbreviation, and_assoc]

/-- What follows the first verb of a passage: the objects, and the other clauses. -/
def Passage.afterVerb (p : Passage) (ns : Namespaces) (rest : List Char) : List Char :=
  (termPart ns p.clause.object).text ++
    (((p.clause.others.map (termPart ns)).flatMap fun o => ',' :: ' ' :: o.text) ++
      (((p.others.map fun c => c.property ns true).flatMap fun q => " ;\n    ".toList ++ q.text) ++
        rest))

/-- A passage is written with its subject and its verb first. -/
theorem Passage.text_block (p : Passage) (ns : Namespaces) (rest : List Char) :
    (p.block ns true).text ++ rest = (termPart ns p.subject.toTerm).text ++ ' ' ::
      ((verbPart ns true p.clause.predicate).text ++ ' ' :: p.afterVerb ns rest) := by
  simp only [Passage.block, Block.text, Clause.property, Property.text, Passage.afterVerb,
    List.append_assoc, List.cons_append]

/-- The block of a passage is no directive where its first triple does not look like one. -/
theorem Passage.refuses_directive {p : Passage} (h : looksLikeDirective ns p.first = false)
    (rest : List Char) :
    Refuses grammar .words Symbol.directive ((p.block ns true).text ++ rest) := by
  rw [p.text_block]
  refine refuses_directive_term fun i name hsubject habbreviation => ?_
  have hsubject : p.subject = .iri i := by
    cases hs : p.subject with
    | iri j =>
      rw [hs] at hsubject
      exact congrArg Subject.iri (Term.iri.inj hsubject)
    | blank b =>
      rw [hs] at hsubject
      cases hsubject
  by_cases hverb : p.clause.predicate = Vocabulary.rdfType ∨
      abbreviation? ns p.clause.predicate ≠ none
  · rw [wordsOf_blank rfl]
    exact Or.inr (head_verbPart hverb _)
  · obtain ⟨hkeyword, hbracket⟩ := not_or.mp hverb
    refine Or.inl (Bool.eq_false_iff.mpr fun hname => ?_)
    have hlooks := (looksLikeDirective_iff (t := p.first)).mpr
      ⟨i, name, hsubject, habbreviation, hname, hkeyword, Classical.not_not.mp hbracket⟩
    rw [h] at hlooks
    cases hlooks

/-- Where its first triple looks like a directive, a passage starts with the keyword, a prefix and
an IRI between brackets. -/
theorem Passage.text_directive {p : Passage} (h : looksLikeDirective ns p.first = true)
    (rest : List Char) :
    ∃ name, (∀ c ∈ name, isNameChar c = true) ∧ isDirectiveName name = true ∧
      (p.block ns true).text ++ rest = name ++ ':' :: ' ' :: '<' ::
        (p.clause.predicate.text.toList ++ '>' :: ' ' :: p.afterVerb ns rest) := by
  obtain ⟨i, name, hsubject, habbreviation, hname, hkeyword, hbracket⟩ :
      ∃ i name, p.subject = .iri i ∧ abbreviation? ns i = some (name, "") ∧
        isDirectiveName name.toList = true ∧ p.clause.predicate ≠ Vocabulary.rdfType ∧
        abbreviation? ns p.clause.predicate = none := looksLikeDirective_iff.mp h
  obtain ⟨hwritable, -⟩ := abbreviation?_eq_some habbreviation
  have hsubjectText : (termPart ns p.subject.toTerm).text = name.toList ++ [':'] := by
    rw [hsubject]
    show (iriPart ns i).text = _
    rw [iriPart, habbreviation]
    rfl
  have hverb : verbPart ns true p.clause.predicate = iriPart ns p.clause.predicate :=
    if_neg fun hboth => hkeyword hboth.2
  have hverbText : (verbPart ns true p.clause.predicate).text =
      '<' :: (p.clause.predicate.text.toList ++ ['>']) := by
    rw [hverb, iriPart, hbracket]
  refine ⟨name.toList, isNameChar_of_mem_prefixName (isPrefixName_of_writable hwritable), hname, ?_⟩
  rw [p.text_block, hsubjectText, hverbText]
  simp

/-- What follows the first verb of a passage starts no statement. -/
theorem Passage.refuses_afterVerb {p : Passage} (ns : Namespaces)
    (hobject : p.clause.object.IsWellFormed) (rest : List Char) :
    Refuses grammar .words Symbol.statement (p.afterVerb ns (' ' :: '.' :: rest)) := by
  unfold Passage.afterVerb
  exact refuses_statement_object hobject (endsObject_flatMap _ (endsProperty_flatMap _ rest))

/-- What follows the first verb of a passage starts with a word. -/
theorem Passage.wordsOf_afterVerb {p : Passage} (ns : Namespaces)
    (hobject : p.clause.object.IsWellFormed) (rest : List Char) :
    wordsOf (p.afterVerb ns rest) = p.afterVerb ns rest ∧ p.afterVerb ns rest ≠ [] := by
  obtain ⟨c, cs, htext, hc, -⟩ := (fits_object ns hobject).starts
  rw [Passage.afterVerb, htext]
  exact ⟨wordsOf_cons hc _, List.cons_ne_nil _ _⟩

/-- Where its first triple looks like a directive, a passage is read as a directive up to its first
object, and there no statement starts. -/
theorem Passage.chain_directive {p : Passage} (hp : p.first.IsWellFormed)
    (h : looksLikeDirective ns p.first = true) (rest : List Char) :
    ∃ nodes next, Chain grammar Symbol.statement
      (wordsOf ((p.block ns true).statement.text ++ rest)) nodes next ∧ next ≠ [] := by
  obtain ⟨name, hchars, hname, htext⟩ := p.text_directive h (' ' :: '.' :: '\n' :: rest)
  obtain ⟨hword, hnext⟩ := p.wordsOf_afterVerb ns hp.object (' ' :: '.' :: '\n' :: rest)
  have hstatement : (p.block ns true).statement.text ++ rest =
      (p.block ns true).text ++ ' ' :: '.' :: '\n' :: rest := by
    rw [Block.statement, List.append_assoc]
    rfl
  have hdirective := leads_directive_name hchars hname (isIriChar_of_wellFormed hp.predicate)
    ((wordsOf_blank (c := ' ') rfl _).trans hword)
  have hrefused := p.refuses_afterVerb ns hp.object ('\n' :: rest)
  rw [hstatement, htext, wordsOf_nameChars hchars]
  exact ⟨_, _, hdirective.choice_left.chain hrefused.chain, hnext⟩

/-- A document in which a passage looks like a directive is not read. -/
theorem read_documentText_error (entries : List (String × String)) (gap : List Char)
    {before after : List Passage} {p : Passage}
    (hentries : ∀ e ∈ entries, IsPrefixName e.1.toList ∧ (⟨e.2⟩ : Iri).IsWellFormed)
    (hgap : ∀ cs, wordsOf (gap ++ cs) = wordsOf cs)
    (hbefore : ∀ q ∈ before, (∀ t ∈ q.triples, t.IsWellFormed) ∧
      looksLikeDirective ns q.first = false)
    (hp : p.first.IsWellFormed) (hlooks : looksLikeDirective ns p.first = true) :
    ∃ e, read (String.ofList (documentText ns true entries gap (before ++ p :: after))) none =
      .error e := by
  have hblocks := fits_blocks (fun q hq => (hbefore q hq).1)
    fun q hq => q.refuses_directive (hbefore q hq).2
  obtain ⟨nodes, next, htail, hnext⟩ := p.chain_directive hp hlooks
    ((after.map fun q => (q.block ns true).statement).flatMap Part.text)
  obtain ⟨index, hparse⟩ :=
    parse_document_error (fits_declarations hentries) hgap hblocks htail hnext
  refine ⟨.unmatched (Position.ofIndex
    (documentText ns true entries gap (before ++ p :: after)) index), ?_⟩
  unfold read
  dsimp only
  rw [String.toList_ofList]
  have htext : documentText ns true entries gap (before ++ p :: after) =
      (entries.map fun e => declaration e.1.toList e.2.toList).flatMap Part.text ++
        (gap ++ ((before.map fun q => (q.block ns true).statement).flatMap Part.text ++
          ((p.block ns true).statement.text ++
            (after.map fun q => (q.block ns true).statement).flatMap Part.text))) := by
    rw [documentText_eq, List.map_append, List.flatMap_append, List.map_cons, List.flatMap_cons]
  rw [htext, hparse]

end RdfStore.Turtle
