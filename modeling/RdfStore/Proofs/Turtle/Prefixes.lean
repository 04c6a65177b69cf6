import RdfStore.Proofs.Abbreviation
import RdfStore.Proofs.Turtle.RoundTrip

/-!
# The prefixes of a text

The words of a Turtle text stand between blanks and commas, outside of the brackets of IRIs and the
quotes of strings. A word behind the keyword of a directive declares a prefix, and any other
prefixed name uses one. Both writers give the same text for triples with the same members, and the
Turtle text declares the prefixes that it uses, in the order of their registration.
-/

set_option autoImplicit false

namespace RdfStore.Turtle

open RdfStore.Text RdfStore.Syntax

/-! ## Words -/

/-- Where a scan of a text is. -/
inductive Region where
  | plain
  | iri
  | string
  /-- Behind a backslash in a string. -/
  | escape

/-- Characters between words. -/
def isGap (c : Char) : Bool := isBlank c || c == ','

/-- The words of a text, the first of which goes on with what was scanned. Of an IRI between
brackets and of a string only the brackets and the quotes are kept. -/
def scan : Region → List Char → List Char → List (List Char)
  | _, word, [] => if word = [] then [] else [word]
  | .plain, word, c :: cs =>
    if isGap c then (if word = [] then [] else [word]) ++ scan .plain [] cs
    else scan (if c = '<' then .iri else if c = '"' then .string else .plain) (word ++ [c]) cs
  | .iri, word, c :: cs => if c = '>' then scan .plain (word ++ [c]) cs else scan .iri word cs
  | .string, word, c :: cs =>
    if c = '"' then scan .plain (word ++ [c]) cs
    else scan (if c = '\\' then .escape else .string) word cs
  | .escape, word, _ :: cs => scan .string word cs

/-- The datatype of a string, and any other word as it is. -/
def withoutString : List Char → List Char
  | '"' :: '"' :: '^' :: '^' :: datatype => datatype
  | word => word

/-- The prefix of a prefixed name, which may stand behind a string as its datatype. -/
def prefixOf? (word : List Char) : Option String :=
  (splitAtColon (withoutString word)).bind fun parts =>
    if parts.1 = ['_'] then none else some (String.ofList parts.1)

/-- The keyword of a directive. -/
def directiveWord : List Char := "@prefix".toList

/-- The prefixes in words that stand behind the keyword of a directive, or in the others; the flag
tells whether the first word stands behind one. -/
def prefixesIn (declared : Bool) : Bool → List (List Char) → List String
  | _, [] => []
  | isBehind, word :: words =>
    (if isBehind = declared then (prefixOf? word).toList else [])
      ++ prefixesIn declared (word = directiveWord) words

/-- The prefixes that a text declares. -/
def declaredPrefixes (text : String) : List String :=
  prefixesIn true false (scan .plain [] text.toList)

/-- The prefixes of the prefixed names in a text outside of its directives. -/
def namedPrefixes (text : String) : List String :=
  prefixesIn false false (scan .plain [] text.toList)

/-! ## Scanning -/

variable {ns : Namespaces} {word rest : List Char} {c : Char}

/-- A gap ends a word. -/
theorem scan_gap (h : isGap c = true) (hword : word ≠ []) :
    scan .plain word (c :: rest) = word :: scan .plain [] rest := by
  rw [scan, if_pos h, if_neg hword]
  rfl

/-- Gaps between words are passed over. -/
theorem scan_gaps {gaps : List Char} (h : ∀ c ∈ gaps, isGap c = true) :
    scan .plain [] (gaps ++ rest) = scan .plain [] rest := by
  induction gaps with
  | nil => rfl
  | cons c gaps ih =>
    rw [List.cons_append, scan, if_pos (h c List.mem_cons_self), if_pos rfl, List.nil_append]
    exact ih fun d hd => h d (List.mem_cons_of_mem c hd)

/-- Characters that neither end a word nor start an IRI or a string. -/
def isOrdinary (c : Char) : Bool := !(isGap c || c == '<' || c == '"')

/-- Ordinary characters are added to the word. -/
theorem scan_ordinary {cs : List Char} (h : ∀ c ∈ cs, isOrdinary c = true) :
    scan .plain word (cs ++ rest) = scan .plain (word ++ cs) rest := by
  induction cs generalizing word with
  | nil => rw [List.append_nil, List.nil_append]
  | cons c cs ih =>
    have hc := h c List.mem_cons_self
    simp only [isOrdinary, Bool.not_eq_true', Bool.or_eq_false_iff, beq_eq_false_iff_ne] at hc
    rw [List.cons_append, scan, if_neg (Bool.eq_false_iff.mp hc.1.1), if_neg hc.1.2, if_neg hc.2,
      ih fun d hd => h d (List.mem_cons_of_mem c hd), List.append_assoc, List.singleton_append]

/-- A character of a name is ordinary. -/
theorem isOrdinary_of_isNameChar (h : isNameChar c = true) : isOrdinary c = true := by
  by_contra hgap
  simp only [isOrdinary, isGap, isBlank, Bool.not_eq_true, Bool.not_eq_false', Bool.or_eq_true,
    beq_iff_eq] at hgap
  rcases hgap with ((((((rfl | rfl) | rfl) | rfl) | rfl) | rfl) | rfl) <;> cases h

/-- Of an IRI between brackets the brackets are kept. -/
theorem scan_iri {cs : List Char} (h : '>' ∉ cs) :
    scan .plain word ('<' :: (cs ++ '>' :: rest)) = scan .plain (word ++ ['<', '>']) rest := by
  have hinside : ∀ word, scan .iri word (cs ++ '>' :: rest) = scan .plain (word ++ ['>']) rest := by
    induction cs with
    | nil => exact fun _ => rfl
    | cons c cs ih =>
      rw [List.mem_cons, not_or] at h
      intro word
      rw [List.cons_append, scan, if_neg (Ne.symm h.1)]
      exact ih h.2 word
  rw [scan, if_neg (by decide), if_pos rfl, hinside, List.append_assoc]
  rfl

/-- A string ends at the quote at which its text is cut. -/
theorem scan_string {cs content : List Char} (h : splitAtQuote cs = some (content, rest)) :
    scan .string word cs = scan .plain (word ++ ['"']) rest := by
  fun_induction splitAtQuote cs generalizing content with
  | case1 => cases h
  | case2 c cs ih =>
    obtain ⟨r, hr, hrest⟩ := Option.map_eq_some_iff.mp h
    cases hrest
    exact ih hr
  | case3 =>
    cases h
    rfl
  | case4 c cs hescape hquote ih =>
    obtain ⟨r, hr, hrest⟩ := Option.map_eq_some_iff.mp h
    cases hrest
    have hslash : c ≠ '\\' := by
      rintro rfl
      cases cs with
      | nil => cases hr
      | cons d cs => exact hescape d cs rfl rfl
    rw [scan, if_neg hquote, if_neg hslash]
    exact ih hr

/-- Of a string its quotes are kept. -/
theorem scan_quoted (value : String) :
    scan .plain word (quotedText value ++ rest) = scan .plain (word ++ ['"', '"']) rest := by
  have htext : quotedText value ++ rest =
      '"' :: (Escape.encode value.toList ++ '"' :: rest) := by simp [quotedText]
  rw [htext, scan, if_neg (by decide), if_neg (by decide), if_pos rfl,
    scan_string (splitAtQuote_encode value.toList rest), List.append_assoc]
  rfl

/-! ## Written terms as words -/

/-- The prefix by which an IRI is abbreviated. -/
def usedPrefix? (ns : Namespaces) (i : Iri) : Option String := (abbreviation? ns i).map Prod.fst

/-- The word of an IRI. -/
def iriWord (ns : Namespaces) (i : Iri) : List Char :=
  match abbreviation? ns i with
  | some (name, localName) => name.toList ++ ':' :: localName.toList
  | none => ['<', '>']

/-- The word of a term. -/
def termWord (ns : Namespaces) : Term → List Char
  | .iri i => iriWord ns i
  | .blank b => '_' :: ':' :: b.label.toList
  | .literal l => '"' :: '"' :: match l.kind with
    | .plain => []
    | .tagged tag => '@' :: tag.toList
    | .typed datatype => '^' :: '^' :: iriWord ns datatype

/-- An abbreviated IRI is scanned into its name. -/
theorem scan_iriPart {i : Iri} (h : i.IsWellFormed) :
    scan .plain word ((iriPart ns i).text ++ rest) = scan .plain (word ++ iriWord ns i) rest := by
  unfold iriPart iriWord
  cases habbreviation : abbreviation? ns i with
  | some parts =>
    obtain ⟨name, localName⟩ := parts
    obtain ⟨hwritable, -, -, -, hsimple⟩ := abbreviation?_eq_some habbreviation
    refine scan_ordinary fun c hc => ?_
    rcases List.mem_append.mp hc with hc | hc
    · exact isOrdinary_of_isNameChar
        (isNameChar_of_mem_prefixName (isPrefixName_of_writable hwritable) c hc)
    rcases List.mem_cons.mp hc with rfl | hc
    · rfl
    · exact isOrdinary_of_isNameChar (isNameChar_of_mem_local hsimple c hc)
  | none =>
    have hclose : '>' ∉ i.text.toList := fun hmem =>
      absurd (isIriChar_of_wellFormed h _ hmem) (by decide)
    show scan .plain word (('<' :: (i.text.toList ++ ['>'])) ++ rest) = _
    rw [List.cons_append, List.append_assoc, List.singleton_append]
    exact scan_iri hclose

/-- A term is scanned into its word. -/
theorem scan_termPart {t : Term} (h : t.IsWellFormed) :
    scan .plain word ((termPart ns t).text ++ rest) = scan .plain (word ++ termWord ns t) rest := by
  cases t with
  | iri i => exact scan_iriPart h
  | blank b =>
    refine scan_ordinary fun c hc => ?_
    rcases List.mem_cons.mp hc with rfl | hc
    · rfl
    rcases List.mem_cons.mp hc with rfl | hc
    · rfl
    rcases Validity.char_of_isLabel (BlankNode.IsWellFormed.valid h) hc with hname | rfl
    · exact isOrdinary_of_isNameChar hname
    · rfl
  | literal l =>
    obtain ⟨value, kind⟩ := l
    rcases Literal.IsWellFormed.kind_cases h with hkind | ⟨tag, hkind, htag, -⟩ |
      ⟨datatype, hkind, hdatatype, -⟩
    · cases hkind
      exact scan_quoted value
    · cases hkind
      have hordinary : ∀ c ∈ '@' :: tag.toList, isOrdinary c = true := by
        rw [List.forall_mem_cons]
        exact ⟨rfl, fun c hc =>
          isOrdinary_of_isNameChar (Validity.isNameChar_of_isLanguageTag htag hc)⟩
      show scan .plain word ((quotedText value ++ '@' :: tag.toList) ++ rest) = _
      rw [List.append_assoc, scan_quoted, scan_ordinary hordinary, List.append_assoc]
      rfl
    · cases hkind
      have hmarks : ∀ c ∈ ['^', '^'], isOrdinary c = true := List.all_eq_true.mp rfl
      show scan .plain word
        ((quotedText value ++ (['^', '^'] ++ (iriPart ns datatype).text)) ++ rest) = _
      rw [List.append_assoc, scan_quoted, List.append_assoc, scan_ordinary hmarks,
        scan_iriPart hdatatype, List.append_assoc, List.append_assoc]
      rfl

/-- A word that starts without a quote is no string. -/
theorem withoutString_of_head (h : word.head? ≠ some '"') : withoutString word = word := by
  unfold withoutString
  split
  · exact absurd rfl h
  · rfl

/-- The prefix of a prefixed name stands before its first colon. -/
theorem prefixOf?_append {name : List Char} (hname : IsPrefixName name) (localName : List Char) :
    prefixOf? (name ++ ':' :: localName) = some (String.ofList name) := by
  have hcolon : ':' ∉ name := fun hmem =>
    absurd (isNameChar_of_mem_prefixName hname ':' hmem) (by decide)
  have hcases : (name ++ ':' :: localName).head? ≠ some '"' ∧ name ≠ ['_'] := by
    rcases hname with rfl | ⟨c, cs, rfl, hbase, -⟩
    · exact ⟨nofun, nofun⟩
    · constructor <;>
      · rintro ⟨⟩
        cases hbase
  unfold prefixOf?
  rw [withoutString_of_head hcases.1, splitAtColon_append hcolon]
  exact if_neg hcases.2

/-- The prefix in the word of an IRI is the one that abbreviates it. -/
theorem prefixOf?_iriWord (ns : Namespaces) (i : Iri) :
    prefixOf? (iriWord ns i) = usedPrefix? ns i := by
  unfold iriWord usedPrefix?
  split
  · rename_i name localName habbreviation
    obtain ⟨hwritable, -⟩ := abbreviation?_eq_some habbreviation
    rw [habbreviation, prefixOf?_append (isPrefixName_of_writable hwritable), String.ofList_toList]
    rfl
  · rename_i habbreviation
    rw [habbreviation]
    rfl

/-- A text without a colon is not split. -/
theorem splitAtColon_eq_none {cs : List Char} (h : ':' ∉ cs) : splitAtColon cs = none := by
  induction cs with
  | nil => rfl
  | cons c cs ih =>
    rw [List.mem_cons, not_or] at h
    rw [splitAtColon, if_neg (Ne.symm h.1), ih h.2]
    rfl

/-- The word of an IRI starts neither like a directive nor like a string. -/
theorem head_iriWord (ns : Namespaces) (i : Iri) :
    ∃ c ∈ (iriWord ns i).head?, c ≠ '@' ∧ c ≠ '"' := by
  unfold iriWord
  split
  · rename_i name localName habbreviation
    obtain ⟨hwritable, -⟩ := abbreviation?_eq_some habbreviation
    rcases isPrefixName_of_writable hwritable with hname | ⟨c, cs, hname, hbase, -⟩
    · exact ⟨':', by rw [hname]; rfl, by decide⟩
    · refine ⟨c, by rw [hname]; rfl, ?_⟩
      constructor <;>
      · rintro rfl
        cases hbase
  · exact ⟨'<', rfl, by decide⟩

/-- The prefix of a datatype behind a string is the one that abbreviates it. -/
theorem prefixOf?_datatype (ns : Namespaces) (i : Iri) :
    prefixOf? ('"' :: '"' :: '^' :: '^' :: iriWord ns i) = usedPrefix? ns i := by
  obtain ⟨c, hc, -, hquote⟩ := head_iriWord ns i
  have hword : withoutString (iriWord ns i) = iriWord ns i :=
    withoutString_of_head fun hhead => hquote (Option.some.inj (hc.symm.trans hhead))
  rw [← prefixOf?_iriWord, prefixOf?, prefixOf?, hword]
  rfl

/-- The prefix of an address is the used one of this address alone. -/
theorem toList_usedPrefix? (ns : Namespaces) (i : Iri) :
    (usedPrefix? ns i).toList = [i].filterMap (usedPrefix? ns) := by
  cases hi : usedPrefix? ns i <;> simp [hi]

/-- The prefix in the word of a term abbreviates the IRI in it. -/
theorem prefixOf?_termWord (ns : Namespaces) {t : Term} (h : t.IsWellFormed) :
    (prefixOf? (termWord ns t)).toList = (termIris t).filterMap (usedPrefix? ns) := by
  cases t with
  | iri i => exact (congrArg _ (prefixOf?_iriWord ns i)).trans (toList_usedPrefix? ns i)
  | blank b => rfl
  | literal l =>
    obtain ⟨value, kind⟩ := l
    rcases Literal.IsWellFormed.kind_cases h with hkind | ⟨tag, hkind, htag, -⟩ |
      ⟨datatype, hkind, -⟩
    · cases hkind
      rfl
    · cases hkind
      have hcolon : ':' ∉ '"' :: '"' :: '@' :: tag.toList := by
        simp only [List.mem_cons, not_or]
        refine ⟨by decide, by decide, by decide, fun hmem => ?_⟩
        exact absurd (Validity.isNameChar_of_isLanguageTag htag hmem) (by decide)
      show ((splitAtColon ('"' :: '"' :: '@' :: tag.toList)).bind _).toList = []
      rw [splitAtColon_eq_none hcolon]
      rfl
    · cases hkind
      exact (congrArg _ (prefixOf?_datatype ns datatype)).trans (toList_usedPrefix? ns datatype)

/-- A word that is not the keyword of a directive. -/
def IsPlainWord (word : List Char) : Prop := ∃ c ∈ word.head?, c ≠ '@'

/-- The word for a term is a plain word. -/
theorem isPlainWord_termWord (ns : Namespaces) (t : Term) : IsPlainWord (termWord ns t) := by
  cases t with
  | iri i =>
    obtain ⟨c, hc, hne, -⟩ := head_iriWord ns i
    exact ⟨c, hc, hne⟩
  | blank b => exact ⟨'_', rfl, by decide⟩
  | literal l => exact ⟨'"', rfl, by decide⟩

/-! ## Written triples as words -/

/-- A text whose words declare nothing and use the prefixes of some IRIs, in their order. -/
def Shows (ns : Namespaces) (text : List Char) (iris : List Iri) : Prop :=
  ∃ words, directiveWord ∉ words ∧ words.filterMap prefixOf? = iris.filterMap (usedPrefix? ns) ∧
    ∀ rest, scan .plain [] (text ++ rest) = words ++ scan .plain [] rest

/-- Two texts show the addresses of both. -/
theorem Shows.append {text more : List Char} {iris others : List Iri} (h : Shows ns text iris)
    (h' : Shows ns more others) : Shows ns (text ++ more) (iris ++ others) := by
  obtain ⟨words, hwords, hused, hscan⟩ := h
  obtain ⟨words', hwords', hused', hscan'⟩ := h'
  refine ⟨words ++ words', by simp [hwords, hwords'], ?_, fun rest => ?_⟩
  · rw [List.filterMap_append, List.filterMap_append, hused, hused']
  · rw [List.append_assoc, hscan, hscan', List.append_assoc]

/-- Gaps show no addresses. -/
theorem shows_gaps {gaps : List Char} (h : ∀ c ∈ gaps, isGap c = true) : Shows ns gaps [] :=
  ⟨[], List.not_mem_nil, rfl, fun _ => scan_gaps h⟩

/-- A text that is scanned into a word shows the IRIs in it if a gap follows. -/
theorem shows_word {text : List Char} {iris : List Iri} (hword : IsPlainWord word)
    (hiris : (prefixOf? word).toList = iris.filterMap (usedPrefix? ns))
    (hscan : ∀ rest, scan .plain [] (text ++ rest) = scan .plain word rest) (hc : isGap c = true) :
    Shows ns (text ++ [c]) iris := by
  obtain ⟨first, hfirst, hplain⟩ := hword
  have hne : word ≠ [] := by
    rintro rfl
    cases hfirst
  refine ⟨[word], ?_, ?_, fun rest => ?_⟩
  · rw [List.mem_singleton]
    rintro rfl
    cases hfirst
    exact hplain rfl
  · rw [← hiris]
    cases hname : prefixOf? word <;> simp [hname]
  · rw [List.append_assoc, hscan, List.singleton_append, scan_gap hc hne]
    rfl

/-- A written term shows its addresses. -/
theorem shows_termPart (ns : Namespaces) {t : Term} (h : t.IsWellFormed) (hc : isGap c = true) :
    Shows ns ((termPart ns t).text ++ [c]) (termIris t) :=
  shows_word (isPlainWord_termWord ns t) (prefixOf?_termWord ns h) (fun _ => scan_termPart h) hc

/-- The IRI of a predicate, without the one that has a keyword. -/
def verbIris (i : Iri) : List Iri := if i = Vocabulary.rdfType then [] else [i]

/-- A written verb shows its address. -/
theorem shows_verbPart (ns : Namespaces) {i : Iri} (h : i.IsWellFormed) (hc : isGap c = true) :
    Shows ns ((verbPart ns true i).text ++ [c]) (verbIris i) := by
  unfold verbPart verbIris
  by_cases hkeyword : i = Vocabulary.rdfType
  · rw [if_pos ⟨rfl, hkeyword⟩, if_pos hkeyword]
    exact shows_word ⟨'a', rfl, by decide⟩ rfl (fun _ => scan_ordinary (List.all_eq_true.mp rfl)) hc
  · rw [if_neg fun hboth => hkeyword hboth.2, if_neg hkeyword]
    exact shows_termPart ns (t := .iri i) h hc

/-- The IRIs in the written form of a clause. -/
def Clause.iris (c : Clause) : List Iri :=
  verbIris c.predicate ++ (c.object :: c.others).flatMap termIris

/-- Objects with commas between them. -/
theorem shows_objects (ns : Namespaces) {object : Term} {others : List Term}
    (h : ∀ o ∈ object :: others, o.IsWellFormed) :
    Shows ns ((termPart ns object).text
        ++ (others.flatMap fun o => ',' :: ' ' :: (termPart ns o).text) ++ [' '])
      ((object :: others).flatMap termIris) := by
  induction others generalizing object with
  | nil =>
    rw [List.flatMap_nil, List.append_nil, List.flatMap_singleton]
    exact shows_termPart ns (h object List.mem_cons_self) rfl
  | cons o others ih =>
    have hfirst := shows_termPart ns (c := ',') (h object List.mem_cons_self) rfl
    have hgap : Shows ns [' '] [] := shows_gaps (List.all_eq_true.mp rfl)
    have hrest := ih fun o ho => h o (List.mem_cons_of_mem _ ho)
    have hall := hfirst.append (hgap.append hrest)
    rw [List.flatMap_cons]
    simpa using hall

/-- The written form of a clause, before a blank. -/
theorem Clause.shows (ns : Namespaces) {clause : Clause} {subject : Subject}
    (h : ∀ t ∈ clause.triples subject, t.IsWellFormed) :
    Shows ns ((clause.property ns true).text ++ [' ']) clause.iris := by
  have hverb := shows_verbPart ns (c := ' ') (h _ (clause.head_mem subject)).predicate rfl
  have hobjects := shows_objects ns fun o ho =>
    (h _ (Clause.mem_triples (c := clause) ho subject)).object
  have hall := hverb.append hobjects
  rw [Clause.iris, Property.text, Clause.property, List.flatMap_map]
  simpa using hall

/-- Clauses with semicolons between them. -/
theorem shows_clauses (ns : Namespaces) {clause : Clause} {others : List Clause} {subject : Subject}
    (h : ∀ c ∈ clause :: others, ∀ t ∈ c.triples subject, t.IsWellFormed) :
    Shows ns ((clause.property ns true).text
        ++ (others.flatMap fun c => " ;\n    ".toList ++ (c.property ns true).text) ++ [' '])
      ((clause :: others).flatMap Clause.iris) := by
  induction others generalizing clause with
  | nil =>
    rw [List.flatMap_nil, List.append_nil, List.flatMap_singleton]
    exact Clause.shows ns (h clause List.mem_cons_self)
  | cons c others ih =>
    have hfirst := Clause.shows ns (h clause List.mem_cons_self)
    have hmark : Shows ns ([';'] ++ ['\n']) [] :=
      shows_word ⟨';', rfl, by decide⟩ rfl (fun _ => scan_ordinary (List.all_eq_true.mp rfl)) rfl
    have hgap : Shows ns (List.replicate 4 ' ') [] := shows_gaps (List.all_eq_true.mp rfl)
    have hrest := ih fun c hc => h c (List.mem_cons_of_mem _ hc)
    have hall := hfirst.append (hmark.append (hgap.append hrest))
    rw [List.flatMap_cons]
    simpa [List.replicate_succ] using hall

/-- The IRIs in the written form of a passage. -/
def Passage.iris (p : Passage) : List Iri :=
  termIris p.subject.toTerm ++ (p.clause :: p.others).flatMap Clause.iris

/-- The written form of a passage. -/
theorem Passage.shows (ns : Namespaces) {p : Passage} (h : ∀ t ∈ p.triples, t.IsWellFormed) :
    Shows ns (p.block ns true).statement.text p.iris := by
  have hsubject := shows_termPart ns (c := ' ')
    (h _ (List.mem_append_left _ (p.clause.head_mem p.subject))).subject.toTerm rfl
  have hclauses := shows_clauses ns fun c hc t ht =>
    h t (List.mem_flatMap.mpr ⟨c, hc, ht⟩)
  have hend : Shows ns (['.'] ++ ['\n']) [] :=
    shows_word ⟨'.', rfl, by decide⟩ rfl (fun _ => scan_ordinary (List.all_eq_true.mp rfl)) rfl
  have hall := hsubject.append (hclauses.append hend)
  rw [Passage.iris, Block.statement, Block.text, Passage.block, List.flatMap_map]
  simpa using hall

/-- The written passages show the addresses of their triples. -/
theorem shows_passages (ns : Namespaces) {passages : List Passage}
    (h : ∀ p ∈ passages, ∀ t ∈ p.triples, t.IsWellFormed) :
    Shows ns (passages.flatMap fun p => (p.block ns true).statement.text)
      (passages.flatMap Passage.iris) := by
  induction passages with
  | nil => exact shows_gaps nofun
  | cons p passages ih =>
    rw [List.flatMap_cons, List.flatMap_cons]
    exact (Passage.shows ns (h p List.mem_cons_self)).append
      (ih fun q hq => h q (List.mem_cons_of_mem _ hq))

/-! ## Documents -/

variable {ts us : List Triple}

/-- The IRIs in the written form of a passage are those that its triples mention. -/
theorem mem_iris_passage {p : Passage} {i : Iri} :
    i ∈ p.iris ↔ ∃ t ∈ p.triples, i ∈ mentionedIris t := by
  have hverb : ∀ c : Clause, i ∈ verbIris c.predicate ↔
      i ∈ if c.predicate = Vocabulary.rdfType then [] else [c.predicate] := fun _ => Iff.rfl
  constructor
  · intro hi
    rcases List.mem_append.mp hi with hi | hi
    · exact ⟨p.first, List.mem_append_left _ (p.clause.head_mem p.subject), by
        simp [mentionedIris_eq, Passage.first, hi]⟩
    obtain ⟨c, hc, hi⟩ := List.mem_flatMap.mp hi
    rcases List.mem_append.mp hi with hi | hi
    · refine ⟨_, List.mem_flatMap.mpr ⟨c, hc, c.head_mem p.subject⟩, ?_⟩
      rw [mentionedIris_eq, List.mem_append, List.mem_append]
      exact .inl (.inr ((hverb c).mp hi))
    · obtain ⟨o, ho, hi⟩ := List.mem_flatMap.mp hi
      refine ⟨_, List.mem_flatMap.mpr ⟨c, hc, Clause.mem_triples ho p.subject⟩, ?_⟩
      rw [mentionedIris_eq, List.mem_append]
      exact .inr hi
  · rintro ⟨t, ht, hi⟩
    obtain ⟨c, hc, ht⟩ := List.mem_flatMap.mp ht
    obtain ⟨o, ho, rfl⟩ := List.mem_map.mp ht
    rw [mentionedIris_eq, List.mem_append, List.mem_append] at hi
    rcases hi with (hi | hi) | hi
    · exact List.mem_append_left _ hi
    · exact List.mem_append_right _ (List.mem_flatMap.mpr
        ⟨c, hc, List.mem_append_left _ ((hverb c).mpr hi)⟩)
    · exact List.mem_append_right _ (List.mem_flatMap.mpr
        ⟨c, hc, List.mem_append_right _ (List.mem_flatMap.mpr ⟨o, ho, hi⟩)⟩)

/-- The prefixes of the passages of some triples are those that are collected from the triples. -/
theorem mem_usedPrefixes {name : String} :
    name ∈ ((passagesOf ts).flatMap Passage.iris).filterMap (usedPrefix? ns) ↔
      name ∈ usedPrefixes ns ts := by
  have hiris : ∀ i, i ∈ (passagesOf ts).flatMap Passage.iris ↔ i ∈ ts.flatMap mentionedIris := by
    intro i
    conv_rhs => rw [← flatMap_passagesOf ts]
    simp only [List.mem_flatMap, mem_iris_passage]
    exact ⟨fun ⟨p, hp, t, ht, hi⟩ => ⟨t, ⟨p, hp, ht⟩, hi⟩,
      fun ⟨t, ⟨p, hp, ht⟩, hi⟩ => ⟨p, hp, t, ht, hi⟩⟩
  show _ ↔ name ∈ (ts.flatMap mentionedIris).filterMap (usedPrefix? ns)
  simp only [List.mem_filterMap, hiris]

/-- The words of a declaration. -/
theorem scan_declaration {name iri : String} (hname : IsPrefixName name.toList)
    (hiri : (⟨iri⟩ : Iri).IsWellFormed) (rest : List Char) :
    scan .plain [] ((declaration name.toList iri.toList).text ++ rest) =
      directiveWord :: (name.toList ++ [':']) :: ['<', '>'] :: ['.'] :: scan .plain [] rest := by
  have hclose : '>' ∉ iri.toList := fun hmem =>
    absurd (isIriChar_of_wellFormed hiri _ hmem) (by decide)
  have hordinary : ∀ c ∈ name.toList ++ [':'], isOrdinary c = true := by
    rw [List.forall_mem_append, List.forall_mem_singleton]
    exact ⟨fun c hc => isOrdinary_of_isNameChar (isNameChar_of_mem_prefixName hname c hc), rfl⟩
  have hname : ∀ rest, name.toList ++ ':' :: ' ' :: rest = (name.toList ++ [':']) ++ ' ' :: rest :=
    fun rest => by simp
  rw [declaration_append, scan_ordinary (List.all_eq_true.mp rfl), scan_gap rfl (by simp), hname,
    scan_ordinary hordinary, scan_gap rfl (by simp), scan_iri hclose, scan_gap rfl (by simp)]
  show _ :: _ :: _ :: scan .plain [] (['.'] ++ '\n' :: rest) = _
  rw [scan_ordinary (List.all_eq_true.mp rfl), scan_gap rfl (by simp)]
  rfl

/-- Prefixes in words that declare nothing. -/
theorem prefixesIn_plain {words : List (List Char)} (h : directiveWord ∉ words) (declared : Bool) :
    prefixesIn declared false words = if declared then [] else words.filterMap prefixOf? := by
  induction words with
  | nil => cases declared <;> rfl
  | cons word words ih =>
    rw [List.mem_cons, not_or] at h
    rw [prefixesIn, decide_eq_false (Ne.symm h.1), ih h.2]
    cases declared with
    | true => rfl
    | false => cases hword : prefixOf? word <;> simp [hword]

/-- The words of a declaration declare its prefix. -/
theorem prefixesIn_declaration {name : String} (hname : IsPrefixName name.toList) (declared : Bool)
    (words : List (List Char)) :
    prefixesIn declared false
        (directiveWord :: (name.toList ++ [':']) :: ['<', '>'] :: ['.'] :: words) =
      (if declared then [name] else []) ++ prefixesIn declared false words := by
  have hprefix : prefixOf? (name.toList ++ [':']) = some name := by
    rw [prefixOf?_append hname, String.ofList_toList]
  have hword : (name.toList ++ [':'] = directiveWord) = False := by
    refine eq_false fun heq => ?_
    have hlast := congrArg List.getLast? heq
    rw [List.getLast?_concat] at hlast
    exact absurd hlast (by decide)
  have hidle : prefixOf? ['<', '>'] = none ∧ prefixOf? ['.'] = none ∧
      prefixOf? directiveWord = none := by decide
  have hmarks : (['<', '>'] = directiveWord) = False ∧ (['.'] = directiveWord) = False := by
    decide
  cases declared <;> simp [prefixesIn, hprefix, hword, hidle, hmarks]

/-- Prefixes in the words of declarations, and behind them. -/
theorem prefixesIn_declarations {entries : List (String × String)}
    (h : ∀ e ∈ entries, IsPrefixName e.1.toList ∧ (⟨e.2⟩ : Iri).IsWellFormed) (declared : Bool)
    (rest : List Char) :
    prefixesIn declared false (scan .plain []
        ((entries.flatMap fun e => (declaration e.1.toList e.2.toList).text) ++ rest)) =
      (if declared then entries.map Prod.fst else [])
        ++ prefixesIn declared false (scan .plain [] rest) := by
  induction entries with
  | nil => cases declared <;> rfl
  | cons e entries ih =>
    obtain ⟨hname, hiri⟩ := h e List.mem_cons_self
    rw [List.flatMap_cons, List.append_assoc, scan_declaration hname hiri,
      prefixesIn_declaration hname, ih fun e he => h e (List.mem_cons_of_mem _ he)]
    cases declared <;> rfl

/-- The prefixes in what is written for well-formed triples. -/
theorem prefixesIn_write (hkeys : (ns.entries.map Prod.fst).Nodup) (h : ∀ t ∈ ts, t.IsWellFormed)
    (declared : Bool) : prefixesIn declared false (scan .plain [] (write ts ns).toList) =
      if declared then (usedEntries ns (sortedDistinct ts)).map Prod.fst
      else ((passagesOf (sortedDistinct ts)).flatMap Passage.iris).filterMap (usedPrefix? ns) := by
  have hsorted : ∀ t ∈ sortedDistinct ts, t.IsWellFormed := fun t ht =>
    h t (mem_sortedDistinct.mp ht)
  have hpassages : ∀ p ∈ passagesOf (sortedDistinct ts), ∀ t ∈ p.triples, t.IsWellFormed := by
    intro p hp t ht
    refine hsorted t ?_
    rw [← flatMap_passagesOf (sortedDistinct ts)]
    exact List.mem_flatMap.mpr ⟨p, hp, ht⟩
  have hgap : ∀ c ∈ separation ns (sortedDistinct ts), isGap c = true := by
    unfold separation
    split <;> exact List.all_eq_true.mp rfl
  obtain ⟨words, hwords, hused, hscan⟩ := shows_passages ns hpassages
  have hbody := hscan []
  rw [List.append_nil] at hbody
  rw [write_eq, String.toList_ofList, documentText,
    prefixesIn_declarations (usedEntries_fit hkeys hsorted), scan_gaps hgap, hbody,
    show scan .plain [] [] = [] from rfl, List.append_nil, prefixesIn_plain hwords, hused]
  cases declared with
  | true => exact List.append_nil _
  | false => rfl

/-- The entries that are declared have the prefixes that are used. -/
theorem mem_keys_usedEntries {name : String} :
    name ∈ (usedEntries ns ts).map Prod.fst ↔ name ∈ usedPrefixes ns ts := by
  constructor
  · intro hname
    obtain ⟨entry, hentry, rfl⟩ := List.mem_map.mp hname
    exact List.contains_iff_mem.mp (List.mem_filter.mp hentry).2
  · intro hname
    obtain ⟨i, -, hi⟩ := List.mem_filterMap.mp hname
    obtain ⟨⟨_, localName⟩, habbreviation, rfl⟩ := Option.map_eq_some_iff.mp hi
    obtain ⟨-, start, hentry, -⟩ := abbreviation?_eq_some habbreviation
    exact List.mem_map.mpr ⟨_, List.mem_filter.mpr ⟨hentry, List.contains_iff_mem.mpr hname⟩, rfl⟩

/-! ## One text for one set of triples -/

/-- Lists with the same members have the same sorted triples. -/
theorem sortedDistinct_eq (h : ∀ t, t ∈ ts ↔ t ∈ us) : sortedDistinct ts = sortedDistinct us := by
  have hperm : (sortedDistinct ts).Perm (sortedDistinct us) := by
    rw [List.perm_ext_iff_of_nodup (nodup_sortedDistinct ts) (nodup_sortedDistinct us)]
    intro t
    rw [mem_sortedDistinct, mem_sortedDistinct, h]
  refine hperm.eq_of_pairwise (fun t u _ _ htu hut => ?_) (pairwise_sortedDistinct ts)
    (pairwise_sortedDistinct us)
  exact Triple.eq_of_isLE (Ordering.isLE_of_eq_lt htu) (Ordering.isLE_of_eq_lt hut)

open Namespaces in
/-- However prefixes were registered, triples with the same members are written as the same text by
both writers. The Turtle text of well-formed triples declares exactly the prefixes of the prefixed
names in it, which are registered, each once and in the order of registration. -/
theorem write_isCanonical (calls : List (String × String)) (hsame : ∀ t, t ∈ ts ↔ t ∈ us) :
    write ts (empty.addAll calls) = write us (empty.addAll calls) ∧ writeLines ts = writeLines us ∧
      ((∀ t ∈ ts, t.IsWellFormed) →
        AreInOrder calls (declaredPrefixes (write ts (empty.addAll calls))) ∧
        ∀ name,
          (name ∈ declaredPrefixes (write ts (empty.addAll calls)) ↔
            name ∈ namedPrefixes (write ts (empty.addAll calls))) ∧
          (name ∈ declaredPrefixes (write ts (empty.addAll calls)) →
            ∃ iri, IsRegistered calls name iri)) := by
  have hsorted := sortedDistinct_eq hsame
  refine ⟨?_, ?_, fun h => ?_⟩
  · rw [write_eq, write_eq, hsorted]
  · rw [writeLines, writeLines, hsorted]
  have hdeclared : declaredPrefixes (write ts (empty.addAll calls)) =
      (usedEntries (empty.addAll calls) (sortedDistinct ts)).map Prod.fst :=
    prefixesIn_write (nodup_keys calls) h true
  have hnamed : ∀ name, name ∈ namedPrefixes (write ts (empty.addAll calls)) ↔
      name ∈ usedPrefixes (empty.addAll calls) (sortedDistinct ts) := by
    intro name
    rw [namedPrefixes, prefixesIn_write (nodup_keys calls) h false]
    exact mem_usedPrefixes
  rw [hdeclared]
  refine ⟨(areInOrder_keys calls).sublist (List.filter_sublist.map Prod.fst), fun name => ⟨?_, ?_⟩⟩
  · exact mem_keys_usedEntries.trans (hnamed name).symm
  · intro hname
    obtain ⟨⟨_, iri⟩, hentry, rfl⟩ := List.mem_map.mp hname
    exact ⟨iri, mem_entries.mp (List.mem_filter.mp hentry).1⟩

/-- Statements with a text that looks like prefixed names, in a language that is called like the
keyword of a directive. -/
def quotation : List Triple :=
  [⟨.iri ⟨"http://example.org/ann"⟩, ⟨"http://example.com/says"⟩,
      .literal ⟨"rdf:type, \"foaf:name\"", .tagged "prefix"⟩⟩,
    ⟨.iri ⟨"http://example.org/ann"⟩, Vocabulary.rdfType, .iri ⟨"http://example.org/Person"⟩⟩,
    ⟨.blank ⟨"bob"⟩, ⟨"http://example.com/age"⟩,
      .literal ⟨"7", .typed ⟨"http://www.w3.org/2001/XMLSchema#byte"⟩⟩⟩]

/-- Registrations of three prefixes, of which one is registered again. -/
def registrations : List (String × String) :=
  [("ex", "http://example.net/"), ("rdf", "http://www.w3.org/1999/02/22-rdf-syntax-ns#"),
    ("xsd", "http://www.w3.org/2001/XMLSchema#"), ("ex", "http://example.org/")]

/-- The quotation is written the same in another order and with repetitions, and it declares the
prefixes that its names use. -/
theorem write_isCanonical_quotation :
    (∀ t, t ∈ quotation ↔ t ∈ quotation.reverse ++ quotation) ∧
      (∀ t ∈ quotation, t.IsWellFormed) ∧
      write quotation (Namespaces.empty.addAll registrations) =
        write (quotation.reverse ++ quotation) (Namespaces.empty.addAll registrations) ∧
      ∀ name, name ∈ declaredPrefixes (write quotation (Namespaces.empty.addAll registrations)) ↔
        name ∈ namedPrefixes (write quotation (Namespaces.empty.addAll registrations)) := by
  have hsame : ∀ t, t ∈ quotation ↔ t ∈ quotation.reverse ++ quotation := by
    intro t
    rw [List.mem_append, List.mem_reverse, or_self]
  have hwell : ∀ t ∈ quotation, t.IsWellFormed := by
    intro t ht
    simp only [quotation, List.mem_cons, List.not_mem_nil, or_false] at ht
    rcases ht with rfl | rfl | rfl
    · have htagged : Literal.tagged "rdf:type, \"foaf:name\"" "prefix" = .ok _ := rfl
      exact ⟨rfl, rfl, .tagged htagged⟩
    · exact ⟨rfl, rfl, rfl⟩
    · have hbyte : Iri.IsWellFormed ⟨"http://www.w3.org/2001/XMLSchema#byte"⟩ := rfl
      exact ⟨rfl, rfl, .typed hbyte (show Literal.checkedTyped "7" _ = .ok _ from rfl)⟩
  obtain ⟨htext, -, hnames⟩ := write_isCanonical registrations hsame
  exact ⟨hsame, hwell, htext, fun name => ((hnames hwell).2 name).1⟩

end RdfStore.Turtle
