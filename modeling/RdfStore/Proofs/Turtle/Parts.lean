import RdfStore.Proofs.Namespaces
import RdfStore.Proofs.Peg.Rename
import RdfStore.Proofs.Syntax.WrittenTokens
import RdfStore.Turtle.Format
import RdfStore.Turtle.Grammar

/-!
# Written terms that are parsed

The grammar of Turtle is guarded, and it reads every term in the way in which the writers write
it. A part is a piece of a document with the outline of its node; `Part.Fits` says that an
expression reads the part before any text of a kind. IRIs, blank nodes and verbs fit before a
blank or a comma, and objects before what may follow them, since a language tag or a datatype
may stand after blanks.
-/

set_option autoImplicit false

namespace RdfStore.Turtle

open RdfStore.Peg RdfStore.Syntax RdfStore.Text

/-! ## The grammar -/

/-- The blanks that the grammar skips are characters of the text. -/
theorem blankLengthFrom_le (inComment : Bool) (cs : List Char) :
    blankLengthFrom inComment cs ≤ cs.length := by
  induction cs generalizing inComment with
  | nil => cases inComment <;> exact Nat.le_refl 0
  | cons c rest ih =>
    unfold blankLengthFrom
    cases inComment with
    | true =>
      dsimp only
      split <;> exact Nat.succ_le_succ (ih _)
    | false =>
      dsimp only
      split
      · exact Nat.succ_le_succ (ih _)
      split
      · exact Nat.succ_le_succ (ih _)
      · exact Nat.zero_le _

instance : grammar.HasBlanks := ⟨blankLengthFrom_le false⟩

/-- Behind blanks there are none. -/
theorem blankLengthFrom_drop (inComment : Bool) (cs : List Char) :
    blankLengthFrom false (cs.drop (blankLengthFrom inComment cs)) = 0 := by
  fun_induction blankLengthFrom inComment cs with
  | case1 => rfl
  | case2 _ _ _ ih | case3 _ _ _ ih | case4 _ _ _ ih | case5 _ _ ih =>
    rw [List.drop_succ_cons]
    exact ih
  | case6 c rest hblank hcomment =>
    rw [List.drop_zero, blankLengthFrom, if_neg hblank, if_neg hcomment]

/-- The text from its first word on. -/
def wordsOf (cs : List Char) : List Char := grammar.skip .words cs

/-- From its first word on a text starts with a word. -/
theorem wordsOf_wordsOf (cs : List Char) : wordsOf (wordsOf cs) = wordsOf cs := by
  show (cs.drop (blankLength cs)).drop (blankLength (cs.drop (blankLength cs))) = _
  rw [blankLength, blankLength, blankLengthFrom_drop]
  rfl

/-- A blank before a word does not matter. -/
theorem wordsOf_blank {c : Char} (h : isBlank c = true) (cs : List Char) :
    wordsOf (c :: cs) = wordsOf cs := by
  show (c :: cs).drop (blankLength (c :: cs)) = cs.drop (blankLength cs)
  rw [blankLength, blankLengthFrom, if_pos h, List.drop_succ_cons]
  rfl

/-- A character that starts a word. -/
def isWordStart (c : Char) : Bool := !isBlank c && c != '#'

/-- No blanks are counted before a word. -/
theorem blankLength_cons {c : Char} (h : isWordStart c = true) (cs : List Char) :
    blankLength (c :: cs) = 0 := by
  obtain ⟨hblank, hcomment⟩ := Bool.and_eq_true_iff.mp h
  have hblank : ¬isBlank c = true := by simpa using hblank
  rw [blankLength, blankLengthFrom, if_neg hblank, if_neg (bne_iff_ne.mp hcomment)]

/-- No blanks come before a word. -/
theorem wordsOf_cons {c : Char} (h : isWordStart c = true) (cs : List Char) :
    wordsOf (c :: cs) = c :: cs := by
  show (c :: cs).drop (blankLength (c :: cs)) = c :: cs
  rw [blankLength_cons h, List.drop_zero]

/-- Before a word no blanks are skipped. -/
theorem starts_cons {c : Char} (h : isWordStart c = true) (mode : Mode) (cs : List Char) :
    Starts grammar mode (c :: cs) :=
  fun _ => blankLength_cons h cs

/-- A character of a name starts a word. -/
theorem isWordStart_of_isNameChar {c : Char} (h : isNameChar c = true) :
    isWordStart c = true := by
  have hne : ∀ d, isNameChar d = false → c ≠ d := by
    rintro d hd rfl
    rw [h] at hd
    cases hd
  have hblank : isBlank c = false := by
    simp [isBlank, hne ' ' rfl, hne '\t' rfl, hne '\r' rfl, hne '\n' rfl]
  rw [isWordStart, hblank]
  exact bne_iff_ne.mpr (hne '#' rfl)

/-- A character that starts a name may stand in it. -/
theorem isNameChar_of_isNameBase {c : Char} (h : isNameBase c = true) : isNameChar c = true := by
  simp [isNameChar, isNameStart, h]

/-- The characters of a prefix are characters of names. -/
theorem isNameChar_of_mem_prefixName {name : List Char} (h : IsPrefixName name) :
    ∀ c ∈ name, isNameChar c = true := by
  rcases h with rfl | ⟨c, cs, rfl, hc, hcs⟩
  · exact fun _ hc => absurd hc List.not_mem_nil
  · intro d hd
    rcases List.mem_cons.mp hd with rfl | hd
    · exact isNameChar_of_isNameBase hc
    · exact hcs d hd

/-- The tokens of the grammar are the shared ones. -/
theorem hasTokens : HasTokens grammar Symbol.terminal := ⟨fun _ => rfl⟩

/-- The rules that read a character whenever they match. -/
def readsCharacter : Symbol → Bool
  | .terminal .iriContent | .terminal .quotedContent | .terminal .singleQuotedContent
  | .terminal .longQuotedContent | .terminal .longSingleQuotedContent | .document | .endOfText =>
    false
  | _ => true

/-- The rank of a rule: above those of the rules it calls before a character is read. -/
def rank : Symbol → Nat
  | .document => 3
  | .triples | .predicateObjectList | .objectList => 2
  | .terminal .prefixedName | .literal => 1
  | _ => 0

/-- No rule of the grammar calls itself before it has read a character. -/
theorem isGuarded_grammar : grammar.IsGuarded readsCharacter rank where
  consumes r := by
    cases r with
    | terminal t => cases t <;> decide
    | _ => decide
  guarded r := by
    cases r with
    | terminal t => cases t <;> decide
    | _ => decide
  rank_lt r := by
    show rank r < 40
    unfold rank
    split <;> decide

/-- Where the first character tells that an expression fails, it is refused. -/
theorem refuses_of_head {c : Char} {e : Expr Symbol} (hword : isWordStart c = true)
    (h : e.peek (grammar.peek (some c) 4) (some c) = .fails) (rest : List Char) :
    Refuses grammar .words e (c :: rest) :=
  refuses_of_peek (starts_cons hword _ _) 4 h

/-! ## Parts -/

/-- A piece of a document with the node that it leaves. -/
structure Part where
  text : List Char
  node : Outline Symbol

/-- A part starts with a word but not with a bracket, and an expression reads it before a text of
some kind. -/
structure Part.Fits (p : Part) (e : Expr Symbol) (follows : List Char → Prop) : Prop where
  starts : ∃ c cs, p.text = c :: cs ∧ isWordStart c = true ∧ c ≠ '['
  leads : ∀ rest, follows rest → Leads grammar e (p.text ++ rest) [p.node] (wordsOf rest)

/-- What may follow an object: another one, another verb or the end of the statement. -/
inductive EndsObject : List Char → Prop where
  | comma (rest : List Char) : EndsObject (',' :: rest)
  | semicolon (rest : List Char) : EndsObject (' ' :: ';' :: rest)
  | dot (rest : List Char) : EndsObject (' ' :: '.' :: rest)

section Parts

variable {p : Part} {e : Expr Symbol} {follows : List Char → Prop} {rest : List Char}

/-- Before a part no blanks are skipped. -/
theorem Part.Fits.wordsOf_eq (h : p.Fits e follows) (rest : List Char) :
    wordsOf (p.text ++ rest) = p.text ++ rest := by
  obtain ⟨c, cs, htext, hc, -⟩ := h.starts
  rw [htext, List.cons_append, wordsOf_cons hc]

/-- What fits before more texts fits before fewer. -/
theorem Part.Fits.mono (h : p.Fits e follows) {follows' : List Char → Prop}
    (hfollows : ∀ rest, follows' rest → follows rest) : p.Fits e follows' :=
  ⟨h.starts, fun rest hrest => h.leads rest (hfollows rest hrest)⟩

/-- A part fits a choice if it fits its first expression. -/
theorem Part.Fits.choice_left (h : p.Fits e follows) (second : Expr Symbol) :
    p.Fits (.choice e second) follows :=
  ⟨h.starts, fun rest hrest => (h.leads rest hrest).choice_left⟩

/-- A part fits a choice if it fits its second expression and its first character tells that the
first one fails. -/
theorem Part.Fits.choice_right (h : p.Fits e follows) {first : Expr Symbol} {c : Char}
    (hhead : p.text.head? = some c) (hword : isWordStart c = true)
    (hfirst : first.peek (grammar.peek (some c) 4) (some c) = .fails) :
    p.Fits (.choice first e) follows := by
  refine ⟨h.starts, fun rest hrest => Leads.choice_right ?_ (h.leads rest hrest)⟩
  obtain ⟨cs, htext⟩ := List.head?_eq_some_iff.mp hhead
  rw [htext]
  exact refuses_of_head hword hfirst _

/-- What may follow an object is a blank or a comma. -/
theorem EndsObject.isDelimited (h : EndsObject rest) : IsDelimited rest := by
  cases h with
  | comma rest => exact ⟨',', rest, rfl, Or.inr rfl⟩
  | semicolon rest => exact ⟨' ', ';' :: rest, rfl, Or.inl rfl⟩
  | dot rest => exact ⟨' ', '.' :: rest, rfl, Or.inl rfl⟩

/-- After an object there is neither a language tag nor a datatype. -/
theorem EndsObject.refuses_suffix (h : EndsObject rest) :
    Refuses grammar .words (.choice (.rule (.terminal .languageTag))
      (.seq (.lit "^^") Symbol.iri)) (wordsOf rest) := by
  cases h with
  | comma rest => exact refuses_of_head rfl rfl rest
  | semicolon rest => exact refuses_of_head rfl rfl rest
  | dot rest => exact refuses_of_head rfl rfl rest

end Parts

/-! ## IRIs -/

/-- An IRI, abbreviated where a prefix allows it. -/
def iriPart (ns : Namespaces) (i : Iri) : Part :=
  match abbreviation? ns i with
  | some (name, localName) =>
    ⟨name.toList ++ ':' :: localName.toList,
      prefixedOutline .terminal name.toList localName.toList⟩
  | none => ⟨'<' :: (i.text.toList ++ ['>']), iriOutline .terminal i.text.toList⟩

/-- A letter starts a part, and no reference. -/
theorem starts_of_isNameBase {c : Char} (h : isNameBase c = true) :
    isWordStart c = true ∧ c ≠ '[' ∧ c ≠ '<' := by
  refine ⟨isWordStart_of_isNameChar (isNameChar_of_isNameBase h), ?_, ?_⟩ <;>
  · rintro rfl
    cases h

/-- No blanks come before characters of names and a colon. -/
theorem wordsOf_nameChars {cs : List Char} (h : ∀ c ∈ cs, isNameChar c = true)
    (rest : List Char) : wordsOf (cs ++ ':' :: rest) = cs ++ ':' :: rest := by
  cases cs with
  | nil => exact wordsOf_cons rfl rest
  | cons c cs => exact wordsOf_cons (isWordStart_of_isNameChar (h c List.mem_cons_self)) _

/-- A prefixed name, or a prefix alone, is read as an IRI before a delimiter. -/
theorem fits_prefixed {name localName : List Char} (hname : IsPrefixName name)
    (hlocal : localName = [] ∨ IsLocalName localName) :
    Part.Fits ⟨name ++ ':' :: localName, prefixedOutline .terminal name localName⟩ Symbol.iri
      IsDelimited := by
  have hhead : ∃ c cs, name ++ ':' :: localName = c :: cs ∧ isWordStart c = true ∧ c ≠ '[' ∧
      c ≠ '<' := by
    rcases hname with rfl | ⟨c, cs, rfl, hc, -⟩
    · exact ⟨':', localName, rfl, rfl, by decide⟩
    · exact ⟨c, cs ++ ':' :: localName, rfl, starts_of_isNameBase hc⟩
  obtain ⟨c, cs, htext, hword, hlist, hbracket⟩ := hhead
  refine ⟨⟨c, cs, htext, hword, hlist⟩, fun rest hrest => ?_⟩
  have hiri : Refuses grammar .words (.rule (.terminal .iriRef))
      (name ++ ':' :: localName ++ rest) := by
    rw [htext]
    exact refuses_terminal hasTokens .iriRef (refuses_one hbracket _).seq
  refine Leads.choice_right hiri ?_
  -- the form with a local name is tried first, and refused if there is none
  rcases hlocal with rfl | hlocal
  · have hprefixed : Refuses grammar .words (.rule (.terminal .prefixedName))
        (name ++ ':' :: rest) := refuses_prefixedName hasTokens hname hrest
    have hspace : Reads grammar .words (.rule (.terminal .prefixedSpace)) (name ++ ':' :: rest)
        [prefixOutline .terminal name] rest :=
      reads_prefixedSpace hasTokens (by decide) hname rest
    have htext : name ++ [':'] ++ rest = name ++ ':' :: rest := by
      rw [List.append_assoc, List.singleton_append]
    rw [htext]
    exact (Reads.choice_right hprefixed hspace).leads rfl
  · have hprefixed : Reads grammar .words (.rule (.terminal .prefixedName))
        (name ++ ':' :: (localName ++ rest)) [prefixedOutline .terminal name localName] rest :=
      reads_prefixedName hasTokens hname hlocal hrest
    have htext : name ++ ':' :: localName ++ rest = name ++ ':' :: (localName ++ rest) := by
      rw [List.append_assoc, List.cons_append]
    rw [htext]
    exact hprefixed.choice_left.leads rfl

/-- An IRI between angle brackets is read before any text. -/
theorem fits_reference {cs : List Char} (h : ∀ c ∈ cs, isIriChar c = true) :
    Part.Fits ⟨'<' :: (cs ++ ['>']), iriOutline .terminal cs⟩ Symbol.iri fun _ => True := by
  refine ⟨⟨'<', _, rfl, rfl, by decide⟩, fun rest _ => ?_⟩
  have hread : Reads grammar .words (.rule (.terminal .iriRef)) ('<' :: (cs ++ '>' :: rest))
      [iriOutline .terminal cs] rest := reads_iriRef hasTokens h rest
  have htext : '<' :: (cs ++ ['>']) ++ rest = '<' :: (cs ++ '>' :: rest) := by
    rw [List.cons_append, List.append_assoc, List.singleton_append]
  rw [htext]
  exact hread.choice_left.leads rfl

/-- Letters, digits, `_` and `-` are characters of names. -/
theorem isNameChar_of_simple {d : Char}
    (h : (isAsciiAlphanumeric d || d == '_' || d == '-') = true) : isNameChar d = true := by
  simp only [Bool.or_eq_true, beq_iff_eq] at h
  rcases h with (h | rfl) | rfl
  · rcases Bool.or_eq_true_iff.mp h with hletter | hdigit
    · simp [isNameChar, isNameStart, isNameBase, hletter]
    · simp [isNameChar, hdigit]
  · rfl
  · rfl

/-- A writable prefix is a name before a colon. -/
theorem isPrefixName_of_writable {name : String} (h : isWritablePrefix name = true) :
    IsPrefixName name.toList := by
  unfold isWritablePrefix at h
  split at h
  · rename_i hname
    exact Or.inl hname
  · rename_i c rest hname
    obtain ⟨hc, hrest⟩ := Bool.and_eq_true_iff.mp h
    refine Or.inr ⟨c, rest, hname, by simp [isNameBase, hc], fun d hd => ?_⟩
    exact isNameChar_of_simple (List.all_eq_true.mp hrest d hd)

/-- A simple local name is empty or a name after a colon. -/
theorem isLocalName_of_simple {cs : List Char} (h : isSimpleLocalName cs = true) :
    cs = [] ∨ IsLocalName cs := by
  cases cs with
  | nil => exact Or.inl rfl
  | cons c rest =>
    obtain ⟨hc, hrest⟩ := Bool.and_eq_true_iff.mp h
    refine Or.inr ⟨c, rest, rfl, ?_, fun d hd => ?_⟩
    · rcases Bool.or_eq_true_iff.mp hc with hletter | hunderscore
      · simp [isNameStart, isNameBase, hletter]
      · simp [isNameStart, hunderscore]
    · exact isNameChar_of_simple (List.all_eq_true.mp hrest d hd)

/-- An abbreviation is made of a writable prefix and the IRI that it stands for, which the local
name completes. -/
theorem abbreviation?_eq_some {ns : Namespaces} {i : Iri} {name localName : String}
    (h : abbreviation? ns i = some (name, localName)) :
    isWritablePrefix name = true ∧ ∃ start, (name, start) ∈ ns.entries ∧
      i.text = start ++ localName ∧ isSimpleLocalName localName.toList = true := by
  obtain ⟨hparts, hwritable⟩ := Option.filter_eq_some_iff.mp h
  exact ⟨hwritable, Namespaces.compactParts?_eq_some hparts⟩

/-- A well-formed IRI is read as it is written. -/
theorem fits_iri (ns : Namespaces) {i : Iri} (h : i.IsWellFormed) :
    (iriPart ns i).Fits Symbol.iri IsDelimited := by
  unfold iriPart
  split
  · rename_i name localName habbreviation
    obtain ⟨hwritable, -, -, -, hsimple⟩ := abbreviation?_eq_some habbreviation
    exact fits_prefixed (isPrefixName_of_writable hwritable) (isLocalName_of_simple hsimple)
  · exact (fits_reference (isIriChar_of_wellFormed h)).mono fun _ _ => trivial

/-! ## Terms -/

/-- The text of a string between double quotes. -/
def quotedText (value : String) : List Char := '"' :: (Escape.encode value.toList ++ ['"'])

/-- A literal with its language or datatype. -/
def literalPart (ns : Namespaces) (l : Literal) : Part :=
  let string := stringOutline .terminal (Escape.encode l.value.toList)
  match l.kind with
  | .plain => ⟨quotedText l.value, .node .literal [] [string]⟩
  | .tagged tag =>
    ⟨quotedText l.value ++ '@' :: tag.toList,
      .node .literal [] [string, tagOutline .terminal tag.toList]⟩
  | .typed datatype =>
    ⟨quotedText l.value ++ '^' :: '^' :: (iriPart ns datatype).text,
      .node .literal [] [string, (iriPart ns datatype).node]⟩

/-- A term, with the IRIs in it abbreviated. -/
def termPart (ns : Namespaces) : Term → Part
  | .iri node => iriPart ns node
  | .blank node => ⟨'_' :: ':' :: node.label.toList, blankOutline .terminal node.label.toList⟩
  | .literal l => literalPart ns l

/-- A predicate; the keyword stands for the type of a thing where it is used. -/
def verbPart (ns : Namespaces) (usesKeyword : Bool) (predicate : Iri) : Part :=
  if usesKeyword ∧ predicate = Vocabulary.rdfType then ⟨['a'], .node .typeKeyword ['a'] []⟩
  else iriPart ns predicate

/-- A string is read before a text that does not start with a double quote. -/
theorem leads_string (value : String) (rest : List Char) (hrest : rest.head? ≠ some '"') :
    Leads grammar (Terminal.anyString .terminal) (quotedText value ++ rest)
      [stringOutline .terminal (Escape.encode value.toList)] (wordsOf rest) := by
  have hread : Reads grammar .words (Terminal.anyString .terminal)
      ('"' :: (Escape.encode value.toList ++ '"' :: rest))
      [stringOutline .terminal (Escape.encode value.toList)] rest :=
    reads_anyString hasTokens value.toList hrest
  have htext : quotedText value ++ rest = '"' :: (Escape.encode value.toList ++ '"' :: rest) := by
    rw [quotedText, List.cons_append, List.append_assoc, List.singleton_append]
  rw [htext]
  exact hread.leads rfl

/-- A well-formed literal is read as it is written. -/
theorem fits_literal (ns : Namespaces) {l : Literal} (h : l.IsWellFormed) :
    (literalPart ns l).Fits (.rule .literal) EndsObject := by
  unfold literalPart
  rcases h.kind_cases with hkind | ⟨tag, hkind, htag, -⟩ | ⟨datatype, hkind, hdatatype, -⟩
  · rw [hkind]
    refine ⟨⟨'"', _, rfl, rfl, by decide⟩, fun rest hrest => Leads.rule_words rfl ?_⟩
    have hquote : rest.head? ≠ some '"' := by
      cases hrest <;> exact nofun
    exact (leads_string l.value rest hquote).seq
      (hrest.refuses_suffix.leads_opt (wordsOf_wordsOf rest))
  · rw [hkind]
    refine ⟨⟨'"', _, rfl, rfl, by decide⟩, fun rest hrest => Leads.rule_words rfl ?_⟩
    have hsuffix : Leads grammar (.rule (.terminal .languageTag)) ('@' :: (tag.toList ++ rest))
        [tagOutline .terminal tag.toList] (wordsOf rest) :=
      (reads_languageTag hasTokens (by decide) htag (.inr hrest.isDelimited)).leads rfl
    have hstring := leads_string l.value ('@' :: (tag.toList ++ rest)) nofun
    rw [wordsOf_cons rfl] at hstring
    rw [List.append_assoc, List.cons_append]
    exact hstring.seq hsuffix.choice_left.opt
  · rw [hkind]
    refine ⟨⟨'"', _, rfl, rfl, by decide⟩, fun rest hrest => Leads.rule_words rfl ?_⟩
    have hiri := fits_iri ns hdatatype
    have hcarets : Leads grammar (.lit "^^") ('^' :: '^' :: ((iriPart ns datatype).text ++ rest))
        [] ((iriPart ns datatype).text ++ rest) :=
      (reads_text ['^', '^'] _).leads (hiri.wordsOf_eq rest)
    have hsuffix := hcarets.seq (hiri.leads rest hrest.isDelimited)
    have htag : Refuses grammar .words (.rule (.terminal .languageTag))
        ('^' :: '^' :: ((iriPart ns datatype).text ++ rest)) := refuses_of_head rfl rfl _
    have hstring := leads_string l.value ('^' :: '^' :: ((iriPart ns datatype).text ++ rest)) nofun
    rw [wordsOf_cons rfl] at hstring
    rw [List.append_assoc, List.cons_append, List.cons_append]
    exact hstring.seq (Leads.choice_right htag hsuffix).opt

/-! ## Positions -/

/-- A blank node is read as it is written. -/
theorem fits_blank {b : BlankNode} (h : Validity.isLabel b.label.toList = true) :
    Part.Fits ⟨'_' :: ':' :: b.label.toList, blankOutline .terminal b.label.toList⟩
      Symbol.blankNode IsDelimited := by
  refine ⟨⟨'_', _, rfl, rfl, by decide⟩, fun rest hrest => Leads.choice_left ?_⟩
  exact (reads_blankNodeLabel hasTokens h hrest).leads rfl

/-- A well-formed subject is read as it is written. -/
theorem fits_subject (ns : Namespaces) {s : Subject} (h : s.IsWellFormed) :
    (termPart ns s.toTerm).Fits Symbol.subject IsDelimited := by
  cases s with
  | iri node => exact (fits_iri ns h).choice_left _
  | blank node =>
    exact ((fits_blank (BlankNode.IsWellFormed.valid h)).choice_left _).choice_right rfl rfl rfl

/-- A literal starts with a double quote. -/
theorem head_literalPart (ns : Namespaces) (l : Literal) :
    (literalPart ns l).text.head? = some '"' := by
  unfold literalPart
  split <;> rfl

/-- A well-formed object is read as it is written. -/
theorem fits_object (ns : Namespaces) {t : Term} (h : t.IsWellFormed) :
    (termPart ns t).Fits Symbol.object EndsObject := by
  cases t with
  | iri node =>
    exact ((fits_iri ns h).mono fun _ hrest => hrest.isDelimited).choice_left _
  | blank node =>
    have hblank := (fits_blank (BlankNode.IsWellFormed.valid h)).mono
      fun _ (hrest : EndsObject _) => hrest.isDelimited
    exact (hblank.choice_left _).choice_right rfl rfl rfl
  | literal l =>
    have hhead := head_literalPart ns l
    have hliteral : (literalPart ns l).Fits Symbol.anyLiteral EndsObject :=
      (fits_literal ns h).choice_left _
    exact (((hliteral.choice_right hhead rfl rfl).choice_right hhead rfl rfl).choice_right hhead
      rfl rfl).choice_right hhead rfl rfl

/-- The keyword for the type is read as a verb. -/
theorem fits_keyword :
    Part.Fits ⟨['a'], .node .typeKeyword ['a'] []⟩ Symbol.verb IsDelimited := by
  refine ⟨⟨'a', [], rfl, rfl, by decide⟩, fun rest hrest => ?_⟩
  have hend : Refuses grammar .token (.char fun c => isNameChar c || c == ':') rest :=
    hrest.refuses (by decide) rfl rfl
  have hread : Reads grammar .words (.rule .typeKeyword) (['a'] ++ rest)
      [.node .typeKeyword ['a'] []] rest :=
    Reads.rule_text (by decide) rfl ((reads_one 'a' rest).seq hend.notAhead)
  have hiri : Refuses grammar .words Symbol.iri (['a'] ++ rest) :=
    refuses_iri_of_word hasTokens rfl nofun hrest
  exact Leads.choice_right hiri (hread.leads rfl)

/-- A well-formed predicate is read as it is written. -/
theorem fits_verb (ns : Namespaces) (usesKeyword : Bool) {predicate : Iri}
    (h : predicate.IsWellFormed) :
    (verbPart ns usesKeyword predicate).Fits Symbol.verb IsDelimited := by
  unfold verbPart
  split
  · exact fits_keyword
  · exact (fits_iri ns h).choice_left _

end RdfStore.Turtle
