import RdfStore.Proofs.Iri.Resolution
import RdfStore.Proofs.Peg.Growth
import RdfStore.Proofs.Syntax.TokenTerms
import RdfStore.Proofs.Syntax.Validators
import RdfStore.Proofs.Text.Segments

/-!
# Faults of tokens

Why a token that the grammar has matched can still be refused. The character classes of names and
language tags lie inside those that the checks of terms allow, so nothing can go wrong with a
defined prefix or with a tag; what remains are prefixes without definition, IRIs that cannot be
resolved, characters that come in by their numbers, and numbers that no character has.
-/

set_option autoImplicit false

namespace RdfStore.Syntax

open RdfStore.Peg RdfStore.Text

variable {R : Type} {g : Grammar R} {alphabet : Escape.Alphabet} {cs piece rest : List Char}
  {nodes : List (Outline R)}

/-! ## Escapes in tokens -/

/-- Some hexadecimal digits in a row are read as that many. -/
theorem hexes_of_runs (k : Nat) (h : Runs g .token (.once (.seqs (List.replicate (k + 1)
      Terminal.hex))) cs (some (nodes, rest))) :
    ∃ digits, cs = digits ++ rest ∧ digits.length = k + 1 ∧
      ∀ c ∈ digits, isHexDigit c = true := by
  induction k generalizing cs nodes with
  | zero =>
    obtain ⟨-, c, rfl, hc⟩ := Runs.of_char h
    exact ⟨[c], rfl, rfl, by simpa using hc⟩
  | succ k ih =>
    obtain ⟨_, _, mid, -, hfirst, hmore⟩ := Runs.of_seq_tight (by decide) h
    obtain ⟨-, c, rfl, hc⟩ := hfirst.of_char
    obtain ⟨digits, rfl, hlength, hall⟩ := ih hmore
    exact ⟨c :: digits, rfl, by simp [hlength], by simpa using ⟨hc, hall⟩⟩

/-- What is read as a numeric escape is one. -/
theorem isNumeric_of_runs
    (h : Runs g .token (.once Terminal.numericEscape) (piece ++ rest) (some (nodes, rest))) :
    ∃ n, Escape.IsNumeric piece n := by
  rcases h.of_choice with hshort | ⟨-, hlong⟩
  · obtain ⟨_, _, mid, -, hmark, hdigits⟩ := hshort.of_seq_tight (by decide)
    obtain ⟨digits, rfl, hlength, hall⟩ := hexes_of_runs 3 hdigits
    obtain rfl : piece = '\\' :: 'u' :: digits := List.append_cancel_right hmark.of_text.2
    exact ⟨_, .short hlength (Escape.hexNumber?_eq hall)⟩
  · obtain ⟨_, _, mid, -, hmark, hdigits⟩ := hlong.of_seq_tight (by decide)
    obtain ⟨digits, rfl, hlength, hall⟩ := hexes_of_runs 7 hdigits
    obtain rfl : piece = '\\' :: 'U' :: digits := List.append_cancel_right hmark.of_text.2
    exact ⟨_, .long hlength (Escape.hexNumber?_eq hall)⟩

/-- Each letter of an escape stands for a character. -/
theorem single?_of_isEscapeLetter {c : Char} (h : isEscapeLetter c = true) :
    ∃ x, Escape.single? c = some x := by
  simp only [isEscapeLetter, Bool.or_eq_true, beq_iff_eq, or_assoc] at h
  rcases h with rfl | rfl | rfl | rfl | rfl | rfl | rfl | rfl <;> exact ⟨_, rfl⟩

/-- A character that is read, other than a backslash, is a piece of an escaped text. -/
theorem isPiece_of_char {isMember : Char → Bool} (hslash : isMember '\\' = false)
    (h : Runs g .token (.once (.char isMember)) (piece ++ rest) (some (nodes, rest))) :
    Escape.IsPiece alphabet piece := by
  obtain ⟨-, c, hcs, hc⟩ := h.of_char
  obtain rfl : piece = [c] := List.append_cancel_right hcs
  apply Escape.IsPiece.plain
  rintro rfl
  simp [hslash] at hc

/-- A numeric escape or a character other than the backslash. -/
theorem isPiece_of_numeric {isMember : Char → Bool} (hslash : isMember '\\' = false)
    (h : Runs g .token (.once (.choice Terminal.numericEscape (.char isMember))) (piece ++ rest)
      (some (nodes, rest))) : Escape.IsPiece alphabet piece := by
  rcases h.of_choice with hnumeric | ⟨-, hchar⟩
  · obtain ⟨n, hn⟩ := isNumeric_of_runs hnumeric
    exact .numeric hn
  · exact isPiece_of_char hslash hchar

/-- In a string there can also be a letter behind a backslash. -/
theorem isPiece_of_letter {isMember : Char → Bool} (hslash : isMember '\\' = false)
    (h : Runs g .token (.once (.choices [Terminal.letterEscape, Terminal.numericEscape,
      .char isMember])) (piece ++ rest) (some (nodes, rest))) :
    Escape.IsPiece .literal piece := by
  rcases h.of_choice with hletter | ⟨-, hother⟩
  · obtain ⟨_, _, mid, -, hmark, hletter⟩ := hletter.of_seq_tight (by decide)
    obtain ⟨-, c, rfl, hc⟩ := hletter.of_char
    obtain rfl : piece = ['\\', c] := List.append_cancel_right hmark.of_one.2
    obtain ⟨x, hx⟩ := single?_of_isEscapeLetter hc
    exact .letter rfl hx
  · exact isPiece_of_numeric hslash hother

variable [g.HasBlanks] {embed : Terminal → R} {token : ParseTree R}

/-- A repetition of pieces reads an escaped text. -/
theorem isEscaped_of_star {item : Expr R}
    (hitem : ∀ piece rest nodes, Runs g .token (.once item) (piece ++ rest) (some (nodes, rest)) →
      Escape.IsPiece alphabet piece)
    (h : Runs g .token (.once (.star item)) (cs ++ rest) (some (nodes, rest))) :
    Escape.IsEscaped alphabet cs := by
  obtain ⟨pieces, hcs, hpieces⟩ := h.star_pieces (by decide)
  exact ⟨pieces, List.append_cancel_right hcs, hpieces.forall hitem⟩

/-- What stands between the marks of an IRI or of a string. -/
def Terminal.content? : Terminal → Option (Terminal × Escape.Alphabet)
  | .iriRef => some (.iriContent, .iri)
  | .quoted => some (.quotedContent, .literal)
  | .singleQuoted => some (.singleQuotedContent, .literal)
  | .longQuoted => some (.longQuotedContent, .literal)
  | .longSingleQuoted => some (.longSingleQuotedContent, .literal)
  | _ => none

variable {t content : Terminal}

/-- A content is put together from characters and escapes. -/
theorem isEscaped_of_content (ht : t.content? = some (content, alphabet))
    (h : Runs g .token (.once (content.production embed).body) (cs ++ rest)
      (some (nodes, rest))) : Escape.IsEscaped alphabet cs := by
  have hline : ∀ quote, Runs g .token (.once (Terminal.lineContent quote)) (cs ++ rest)
      (some (nodes, rest)) → Escape.IsEscaped .literal cs :=
    fun quote => isEscaped_of_star fun _ _ _ => isPiece_of_letter (by simp)
  have hlong : ∀ quote, Runs g .token (.once (Terminal.longContent quote)) (cs ++ rest)
      (some (nodes, rest)) → Escape.IsEscaped .literal cs := by
    refine fun quote => isEscaped_of_star fun _ _ _ hitem => ?_
    obtain ⟨_, _, mid, -, hahead, hitem⟩ := hitem.of_seq_tight (by decide)
    cases hahead with
    | notAhead => exact isPiece_of_letter (by decide) hitem
  cases t <;> cases ht
  · exact isEscaped_of_star (fun _ _ _ => isPiece_of_numeric (by decide)) h
  · exact hline _ h
  · exact hline _ h
  · exact hlong _ h
  · exact hlong _ h

omit [g.HasBlanks] in
/-- The content between the marks of a token is what the rule of the content reads. -/
theorem runs_of_content (hg : HasTokens g embed) (ht : t.content? = some (content, alphabet))
    (hrule : token.rule = embed t) (hgrown : IsGrown g token) :
    ∃ nodes rest, Runs g .token (.once (content.production embed).body)
      (firstText token.children ++ rest) (some (nodes, rest)) := by
  have hproduction : ∃ front back, t.production embed =
      ⟨.compound, .seqs [front, .rule (embed content), back]⟩ ∧ front.calls = [] ∧
        back.calls = [] := by
    cases t <;> cases ht <;> exact ⟨_, _, rfl, rfl, rfl⟩
  have hcontent : (content.production embed).manner = .token := by
    cases t <;> cases ht <;> rfl
  obtain ⟨front, back, hproduction, hfront, hback⟩ := hproduction
  obtain ⟨r, start, text, children⟩ := token
  obtain rfl : r = embed t := hrule
  obtain ⟨rest, hrun⟩ := hgrown.runs .compound (by simp [hg.production, hproduction, Manner.bodyMode])
  rw [hg.production, hproduction] at hrun
  obtain ⟨first, others, mid, hnodes, hopen, hmore⟩ := hrun.of_seq_tight (by decide)
  obtain ⟨inner, last, after, hothers, hinner, hclose⟩ := hmore.of_seq_tight (by decide)
  obtain ⟨taken, contentNodes, rfl, hchild, hbody⟩ := hinner.of_rule
  have hvisible : (g.production (embed content)).manner.isVisible .compound = true := by
    rw [hg.production, hcontent]
    rfl
  have hwords : (g.production (embed content)).manner ≠ .words := by
    rw [hg.production]
    exact manner_ne_words embed content
  rw [hothers, hopen.eq_nil hfront, hclose.eq_nil hback, hchild, List.nil_append,
    List.append_nil, Grammar.around, if_pos hvisible, Grammar.outlineText, if_neg hwords] at hnodes
  obtain ⟨node, rfl, houtline⟩ := Grammar.eq_singleton_of_outlines hnodes
  obtain ⟨start', text', trees, rfl, -, htext⟩ := Grammar.eq_of_outline houtline
  rw [hg.production, hcontent] at hbody
  obtain rfl := hg.text_eq htext
  exact ⟨contentNodes, after, hbody⟩

/-- Only an escape of no character keeps the content of an IRI or of a string from being decoded. -/
theorem hasBadEscape_of_token (hg : HasTokens g embed) (ht : t.content? = some (content, alphabet))
    (hrule : token.rule = embed t) (hgrown : IsGrown g token)
    (hnone : Escape.decode alphabet (firstText token.children) = none) :
    Escape.HasBadEscape alphabet (firstText token.children) := by
  obtain ⟨nodes, rest, hrun⟩ := runs_of_content hg ht hrule hgrown
  exact (isEscaped_of_content ht hrun).hasBadEscape hnone

/-! ## Names -/

section Names

open Validity IriScope

/-- A class of characters holds none that IRIs forbid if its part in ASCII does not. -/
theorem isIriForbidden_eq_false {isMember : Char → Bool} {c : Char}
    (hascii : ∀ n < 0x80, isMember (Char.ofNat n) = true → isIriForbidden (Char.ofNat n) = false)
    (hc : isMember c = true) : isIriForbidden c = false := by
  by_cases hsmall : c.toNat < 0x80
  · have hmember := hascii c.toNat hsmall
    rw [Char.ofNat_toNat] at hmember
    exact hmember hc
  · apply eq_false_of_ne_true
    intro hforbidden
    simp only [isIriForbidden, Bool.or_eq_true, beq_iff_eq, decide_eq_true_eq,
      or_assoc] at hforbidden
    rcases hforbidden with hcontrol | rfl | rfl | rfl | rfl | rfl | rfl | rfl | rfl | rfl
    · omega
    all_goals exact hsmall (by decide)

/-- A character without a backslash stays as it is. -/
theorem unprotect_cons {c : Char} (hc : c ≠ '\\') (cs : List Char) :
    unprotect (c :: cs) = c :: unprotect cs := by
  rw [unprotect]
  · rintro rfl -
    exact hc rfl
  · rintro _ _ rfl -
    exact hc rfl

/-- A part of a local name that brings nothing into an IRI that it must not hold. -/
def IsHarmless (piece : List Char) : Prop :=
  ∀ rest, isIriText (unprotect rest) = true → isIriText (unprotect (piece ++ rest)) = true

/-- The empty text is harmless. -/
theorem isHarmless_nil : IsHarmless [] := fun _ h => h

/-- A character that may stand in an address leaves a text harmless. -/
theorem isHarmless_cons {c : Char} (hc : isIriForbidden c = false) (h : IsHarmless cs) :
    IsHarmless (c :: cs) := by
  intro rest hrest
  have hslash : c ≠ '\\' := by
    rintro rfl
    exact absurd hc (by decide)
  rw [List.cons_append, unprotect_cons hslash, isIriText_cons, hc, h rest hrest]
  rfl

/-- Two harmless texts make a harmless one. -/
theorem IsHarmless.append (h : IsHarmless cs) (h' : IsHarmless piece) :
    IsHarmless (cs ++ piece) := by
  intro rest hrest
  rw [List.append_assoc]
  exact h _ (h' rest hrest)

/-- Harmless pieces make a harmless text. -/
theorem isHarmless_flatten {pieces : List (List Char)} (h : ∀ piece ∈ pieces, IsHarmless piece) :
    IsHarmless pieces.flatten := by
  induction pieces with
  | nil => exact isHarmless_nil
  | cons piece pieces ih =>
    rw [List.flatten_cons]
    exact (h piece List.mem_cons_self).append (ih fun p hp => h p (List.mem_cons_of_mem _ hp))

omit [g.HasBlanks] in
/-- A character that is read is harmless if no ASCII character of its kind is forbidden. -/
theorem isHarmless_of_char {isMember : Char → Bool}
    (hascii : ∀ n < 0x80, isMember (Char.ofNat n) = true → isIriForbidden (Char.ofNat n) = false)
    (h : Runs g .token (.once (.char isMember)) (piece ++ rest) (some (nodes, rest))) :
    IsHarmless piece := by
  obtain ⟨-, c, hcs, hc⟩ := h.of_char
  obtain rfl : piece = [c] := List.append_cancel_right hcs
  exact isHarmless_cons (isIriForbidden_eq_false hascii hc) isHarmless_nil

omit [g.HasBlanks] in
/-- What a backslash protects is harmless, and so is the number of an octet. -/
theorem isHarmless_of_localEscape
    (h : Runs g .token (.once Terminal.localEscape) (piece ++ rest) (some (nodes, rest))) :
    IsHarmless piece := by
  rcases h.of_choice with hpercent | ⟨-, hprotected⟩
  · obtain ⟨_, _, mid, -, hmark, hdigits⟩ := hpercent.of_seq_tight (by decide)
    obtain ⟨digits, rfl, -, hall⟩ := hexes_of_runs 1 hdigits
    obtain rfl : piece = '%' :: digits := List.append_cancel_right hmark.of_one.2
    apply isHarmless_cons (by decide)
    clear hdigits hmark h hpercent
    induction digits with
    | nil => exact isHarmless_nil
    | cons c digits ih =>
      have hc := isIriForbidden_eq_false (by decide) (hall c List.mem_cons_self)
      exact isHarmless_cons hc (ih fun d hd => hall d (List.mem_cons_of_mem c hd))
  · obtain ⟨_, _, mid, -, hmark, hchar⟩ := hprotected.of_seq_tight (by decide)
    obtain ⟨-, c, rfl, hc⟩ := hchar.of_char
    obtain rfl : piece = ['\\', c] := List.append_cancel_right hmark.of_one.2
    intro rest hrest
    have hallowed := isIriForbidden_eq_false (by decide) hc
    show isIriText (c :: unprotect rest) = true
    rw [isIriText_cons, hallowed, hrest]
    rfl

omit [g.HasBlanks] in
/-- A character of a local name is harmless. -/
theorem isHarmless_of_localChar
    (h : Runs g .token (.once Terminal.localChar) (piece ++ rest) (some (nodes, rest))) :
    IsHarmless piece := by
  rcases h.of_choice with hname | ⟨-, hother⟩
  · exact isHarmless_of_char (by decide) hname
  · rcases hother.of_choice with hcolon | ⟨-, hescape⟩
    · exact isHarmless_of_char (by decide) hcolon
    · exact isHarmless_of_localEscape hescape

/-- A local name brings nothing into an IRI that it must not hold. -/
theorem isHarmless_of_localName
    (h : Runs g .token (.once (Terminal.production embed .localName).body) (cs ++ rest)
      (some (nodes, rest))) : IsHarmless cs := by
  obtain ⟨_, _, mid, -, hfirst, hmore⟩ := h.of_seq_tight (by decide)
  obtain ⟨pieces, rfl, hpieces⟩ := hmore.star_pieces (by decide)
  obtain ⟨first, hfront⟩ := hfirst.exists_taken
  rw [hfront] at hfirst
  have hstart : IsHarmless first := by
    rcases hfirst.of_choice with hname | ⟨-, hother⟩
    · exact isHarmless_of_char (by decide) hname
    rcases hother.of_choice with hcolon | ⟨-, hother⟩
    · exact isHarmless_of_char (by decide) hcolon
    rcases hother.of_choice with hdigit | ⟨-, hescape⟩
    · exact isHarmless_of_char (by decide) hdigit
    · exact isHarmless_of_localEscape hescape
  have hall : ∀ piece ∈ pieces, IsHarmless piece := by
    refine hpieces.forall fun piece after nodes hitem => ?_
    rcases hitem.of_choice with hchar | ⟨-, hdot⟩
    · exact isHarmless_of_localChar hchar
    · obtain ⟨_, _, mid, -, hone, hahead⟩ := hdot.of_seq_tight (by decide)
      cases hahead with
      | ahead => exact isHarmless_of_char (by decide) hone
  rw [← List.append_assoc] at hfront
  rw [List.append_cancel_right hfront]
  exact hstart.append (isHarmless_flatten hall)

/-- A prefix ends at its first colon. -/
theorem colon_of_prefixedSpace
    (h : Runs g .token (.once (Terminal.production embed .prefixedSpace).body) cs
      (some (nodes, rest))) : ∃ name, cs = name ++ ':' :: rest ∧ ':' ∉ name := by
  have hcolon : ∀ c, isNameChar c = true → ':' ≠ c := by
    rintro c hc rfl
    exact absurd hc (by decide)
  obtain ⟨_, _, mid, -, hname, hmark⟩ := h.of_seq_tight (by decide)
  obtain rfl := hmark.of_one.2
  rcases hname.of_opt with hname | ⟨-, rfl⟩
  · obtain ⟨_, _, mid, -, hfirst, hmore⟩ := hname.of_seq_tight (by decide)
    obtain ⟨-, c, rfl, hc⟩ := hfirst.of_char
    obtain ⟨pieces, rfl, hpieces⟩ := hmore.star_pieces (by decide)
    refine ⟨c :: pieces.flatten, rfl, ?_⟩
    have hall : ∀ piece ∈ pieces, ':' ∉ piece := by
      refine hpieces.forall fun piece after nodes hitem => ?_
      obtain ⟨d, rfl, hd | ⟨rfl, -⟩⟩ := piece_of_dotted hitem
      · simpa using hcolon d hd
      · decide
    rw [List.mem_cons, List.mem_flatten]
    rintro (rfl | ⟨piece, hpiece, hmem⟩)
    · exact absurd hc (by decide)
    · exact hall piece hpiece hmem
  · exact ⟨[], rfl, List.not_mem_nil⟩

/-- A prefixed name has a prefix up to its first colon and a harmless local name, which is empty
if the token is a prefix alone. -/
theorem parts_of_token (hg : HasTokens g embed)
    (hrule : token.rule = embed .prefixedName ∨ token.rule = embed .prefixedSpace)
    (hgrown : IsGrown g token) :
    ∃ name localName, token.text = name ++ ':' :: localName ∧ ':' ∉ name ∧
      isIriText (unprotect localName) = true := by
  obtain ⟨r, start, text, children⟩ := token
  rcases hrule with rfl | rfl
  · obtain ⟨rest, hrun⟩ := hgrown.runs .compound (by simp [hg.production, Terminal.production,
      Manner.bodyMode])
    rw [hg.production] at hrun
    obtain ⟨_, _, mid, -, hnamed, hlocal⟩ := hrun.of_seq_tight (by decide)
    obtain ⟨-, prefixNodes, -, -, hnamed⟩ := hnamed.of_rule
    obtain ⟨localName, localNodes, rfl, -, hlocal⟩ := hlocal.of_rule
    rw [hg.production] at hnamed hlocal
    obtain ⟨name, htext, hname⟩ := colon_of_prefixedSpace hnamed
    refine ⟨name, localName, ?_, hname, ?_⟩
    · rw [← List.cons_append, ← List.append_assoc] at htext
      exact List.append_cancel_right htext
    · have hharmless := isHarmless_of_localName hlocal [] rfl
      rwa [List.append_nil] at hharmless
  · obtain ⟨rest, hrun⟩ := hgrown.runs .token (by simp [hg.production, Terminal.production,
      Manner.bodyMode])
    rw [hg.production] at hrun
    obtain ⟨name, htext, hname⟩ := colon_of_prefixedSpace hrun
    refine ⟨name, [], ?_, hname, rfl⟩
    rw [List.append_cons] at htext
    exact List.append_cancel_right htext

end Names

/-! ## Tokens in a scope -/

/-- The base and the IRIs of the prefixes are well-formed. -/
structure IriScope.IsValid (scope : IriScope) : Prop where
  base : ∀ base, scope.base = some base → Iri.IsWellFormed ⟨base⟩
  prefixes : ∀ name iri, scope.prefixes.lookup name = some iri → Iri.IsWellFormed ⟨iri⟩

/-- What can be wrong with a token that the grammar has matched, and how it is reported. -/
inductive Fault (terminal? : R → Option Terminal) (scope : IriScope) (token : ParseTree R) :
    ScopeError → Prop where
  | undefinedPrefix {name localName : List Char}
    (htoken : terminal? token.rule = some .prefixedName ∨
      terminal? token.rule = some .prefixedSpace)
    (htext : token.text = name ++ ':' :: localName) (hname : ':' ∉ name)
    (h : scope.prefixes.lookup (String.ofList name) = none) :
    Fault terminal? scope token (.undefinedPrefix (String.ofList name))
  | escapeInIri (htoken : terminal? token.rule = some .iriRef)
    (h : Escape.HasBadEscape .iri (firstText token.children)) :
    Fault terminal? scope token
      (.refused (.invalidIri (String.ofList (firstText token.children))))
  | forbidden {decoded : String} (htoken : terminal? token.rule = some .iriRef)
    (hdecoded : decodeIri (firstText token.children) = .ok decoded)
    (h : Validity.isIriText decoded.toList = false) :
    Fault terminal? scope token (.refused (.invalidIri decoded))
  | relative {decoded : String} (htoken : terminal? token.rule = some .iriRef)
    (hdecoded : decodeIri (firstText token.children) = .ok decoded)
    (hrelative : Validity.isAbsolute decoded.toList = false) (h : scope.base = none) :
    Fault terminal? scope token (.relativeWithoutBase decoded)
  | unresolved {decoded base : String} {error : TermError}
    (htoken : terminal? token.rule = some .iriRef)
    (hdecoded : decodeIri (firstText token.children) = .ok decoded)
    (hrelative : Validity.isAbsolute decoded.toList = false) (hbase : scope.base = some base)
    (h : resolveIri base decoded = .error error) :
    Fault terminal? scope token (.refused error)
  | escapeInString {t content : Terminal} (htoken : terminal? token.rule = some t)
    (ht : t.content? = some (content, .literal))
    (h : Escape.HasBadEscape .literal (firstText token.children)) :
    Fault terminal? scope token
      (.refused (.invalidLiteralEscape (String.ofList (firstText token.children))))
  | taggedDatatype (h : scope.iri terminal? token = .ok Vocabulary.rdfLangString) :
    Fault terminal? scope token (.refused (.invalidDatatype Vocabulary.rdfLangString.text))

variable {terminal? : R → Option Terminal} {scope : IriScope}

omit [g.HasBlanks] in
/-- A decoded reference is an address if it is absolute, and else needs a base. -/
theorem reference_eq_of_decoded {decoded : String} (h : decodeIri cs = .ok decoded) :
    scope.reference cs =
      if Validity.isAbsolute decoded.toList then IriScope.lift (Iri.of decoded)
      else match scope.base with
        | none => .error (.relativeWithoutBase decoded)
        | some base => IriScope.lift (resolveIri base decoded >>= Iri.of) := by
  unfold IriScope.reference
  rw [h]
  rfl

/-- An IRI in brackets is absolute and without forbidden characters, or it is resolved. -/
theorem reference_cases (hg : HasTokens g embed) (hterminal : ∀ t, terminal? (embed t) = some t)
    (hscope : scope.IsValid) (hrule : token.rule = embed .iriRef) (hgrown : IsGrown g token) :
    (∃ i, scope.reference (firstText token.children) = .ok i) ∨
      ∃ error, scope.reference (firstText token.children) = .error error ∧
        Fault terminal? scope token error := by
  have htoken : terminal? token.rule = some .iriRef := by rw [hrule, hterminal]
  cases hdecode : Escape.decode .iri (firstText token.children) with
  | none =>
    refine .inr ⟨_, ?_, .escapeInIri htoken (hasBadEscape_of_token hg rfl hrule hgrown hdecode)⟩
    unfold IriScope.reference decodeIri
    rw [hdecode]
    rfl
  | some characters =>
    have hdecoded : decodeIri (firstText token.children) = .ok (String.ofList characters) := by
      rw [decodeIri, hdecode]
    generalize String.ofList characters = decoded at hdecoded
    rw [reference_eq_of_decoded hdecoded]
    by_cases habsolute : Validity.isAbsolute decoded.toList = true
    · rw [if_pos habsolute]
      cases htext : Validity.isIriText decoded.toList with
      | true =>
        rw [Iri.of_eq htext habsolute]
        exact .inl ⟨⟨decoded⟩, rfl⟩
      | false =>
        rw [Iri.of_eq_error htext]
        exact .inr ⟨_, rfl, .forbidden htoken hdecoded htext⟩
    · rw [if_neg habsolute]
      have hrelative := eq_false_of_ne_true habsolute
      cases hbase : scope.base with
      | none => exact .inr ⟨_, rfl, .relative htoken hdecoded hrelative hbase⟩
      | some base =>
        have hvalid := (hscope.base base hbase).valid.1
        dsimp only
        cases hresolved : resolveIri base decoded with
        | error error => exact .inr ⟨_, rfl, .unresolved htoken hdecoded hrelative hbase hresolved⟩
        | ok resolved =>
          have hiri := of_resolveIri hvalid hrelative hresolved
          refine .inl ⟨⟨resolved⟩, ?_⟩
          show IriScope.lift (Iri.of resolved) = _
          rw [hiri]
          rfl

/-- With its prefix defined, a prefixed name abbreviates an IRI. -/
theorem prefixedName_cases (hg : HasTokens g embed) (hterminal : ∀ t, terminal? (embed t) = some t)
    (hscope : scope.IsValid)
    (hrule : token.rule = embed .prefixedName ∨ token.rule = embed .prefixedSpace)
    (hgrown : IsGrown g token) :
    (∃ i, scope.prefixedName token.text = .ok i) ∨
      ∃ error, scope.prefixedName token.text = .error error ∧
        Fault terminal? scope token error := by
  obtain ⟨name, localName, htext, hname, hlocal⟩ := parts_of_token hg hrule hgrown
  have htoken : terminal? token.rule = some .prefixedName ∨
      terminal? token.rule = some .prefixedSpace := by
    rcases hrule with h | h
    · exact .inl (by rw [h, hterminal])
    · exact .inr (by rw [h, hterminal])
  unfold IriScope.prefixedName
  rw [htext, splitAtColon_append hname]
  dsimp only [Option.getD_some]
  cases hlookup : scope.prefixes.lookup (String.ofList name) with
  | none => exact .inr ⟨_, rfl, .undefinedPrefix htoken htext hname hlookup⟩
  | some iri =>
    obtain ⟨hiri, habsolute⟩ := (hscope.prefixes _ iri hlookup).valid
    refine .inl ⟨⟨iri ++ String.ofList (IriScope.unprotect localName)⟩, ?_⟩
    dsimp only
    rw [Iri.of_eq]
    · rfl
    · rw [String.toList_append, String.toList_ofList, Validity.isIriText_append, hiri, hlocal]
      rfl
    · rw [String.toList_append]
      exact Validity.isAbsolute_append habsolute _

/-- A result, or an error at one of the tokens, which has the reported fault. -/
def IsExplained {α : Type} (terminal? : R → Option Terminal) (scope : IriScope)
    (tokens : List (ParseTree R)) (r : Except TokenFailure α) : Prop :=
  (∃ a, r = .ok a) ∨ ∃ token ∈ tokens, ∃ error, r = .error ⟨token.start, error⟩ ∧
    Fault terminal? scope token error

/-- The token of an IRI denotes one, or it has a fault. -/
theorem iri_isExplained (hg : HasTokens g embed) (hterminal : ∀ t, terminal? (embed t) = some t)
    (hscope : scope.IsValid) (hrule : token.rule ∈ (Terminal.iri embed).calls)
    (hgrown : IsGrown g token) :
    IsExplained terminal? scope [token] (scope.iri terminal? token) := by
  have hblame : ∀ r : Except ScopeError Iri, ((∃ i, r = .ok i) ∨ ∃ error, r = .error error ∧
      Fault terminal? scope token error) → IsExplained terminal? scope [token] (blame token r) := by
    rintro r (⟨i, rfl⟩ | ⟨error, rfl, hfault⟩)
    · exact .inl ⟨i, rfl⟩
    · exact .inr ⟨token, List.mem_cons_self, error, rfl, hfault⟩
  change token.rule ∈ [embed .iriRef, embed .prefixedName, embed .prefixedSpace] at hrule
  simp only [List.mem_cons, List.not_mem_nil, or_false] at hrule
  unfold IriScope.iri
  rcases hrule with h | h | h
  · rw [h, hterminal]
    exact hblame _ (reference_cases hg hterminal hscope h hgrown)
  · rw [h, hterminal]
    exact hblame _ (prefixedName_cases hg hterminal hscope (.inl h) hgrown)
  · rw [h, hterminal]
    exact hblame _ (prefixedName_cases hg hterminal hscope (.inr h) hgrown)

/-- Behind its sign a language tag is one. -/
theorem isLanguageTag_of_token (hg : HasTokens g embed) (hrule : token.rule = embed .languageTag)
    (hgrown : IsGrown g token) : Validity.isLanguageTag (token.text.drop 1) = true := by
  obtain ⟨r, start, text, children⟩ := token
  obtain rfl : r = embed .languageTag := hrule
  obtain ⟨rest, hrun⟩ := hgrown.runs .token (by simp [hg.production, Terminal.production,
    Manner.bodyMode])
  rw [hg.production] at hrun
  obtain ⟨tag, htext, htag⟩ := isLanguageTag_of_runs hrun
  rw [← List.cons_append] at htext
  obtain rfl : text = '@' :: tag := List.append_cancel_right htext
  exact htag

/-- A datatype can be written behind a string unless it needs a language tag. -/
theorem checkedTyped_cases (value : String) (datatype : Iri) :
    (∃ l, Literal.checkedTyped value datatype = .ok l) ∨ datatype = Vocabulary.rdfLangString ∧
      Literal.checkedTyped value datatype =
        .error (.invalidDatatype Vocabulary.rdfLangString.text) := by
  unfold Literal.checkedTyped
  split
  · rename_i h
    exact .inr ⟨h, by rw [h]⟩
  · exact .inl ⟨_, rfl⟩

omit [g.HasBlanks] in
/-- A decoded literal is what its suffix makes of it. -/
theorem literal_eq_of_decoded {string suffix : ParseTree R} {value : String}
    (hchildren : token.children = [string, suffix])
    (hvalue : decodeLiteral (firstText string.children) = .ok value) :
    scope.literal terminal? token =
      match terminal? suffix.rule with
      | some .languageTag => blame suffix (IriScope.lift
          (Literal.tagged value (String.ofList (suffix.text.drop 1))))
      | _ => scope.iri terminal? suffix >>= fun datatype =>
        blame suffix (IriScope.lift (Literal.checkedTyped value datatype)) := by
  unfold IriScope.literal
  rw [hchildren]
  dsimp only
  rw [hvalue]
  rfl

/-- What follows a string is a language tag, or an IRI that can be that of tagged literals. -/
theorem suffix_isExplained (hg : HasTokens g embed) (hterminal : ∀ t, terminal? (embed t) = some t)
    (hscope : scope.IsValid) {string suffix : ParseTree R} {value : String}
    (hchildren : token.children = [string, suffix])
    (hvalue : decodeLiteral (firstText string.children) = .ok value)
    (hrule : suffix.rule = embed .languageTag ∨ suffix.rule ∈ (Terminal.iri embed).calls)
    (hgrown : IsGrown g suffix) :
    IsExplained terminal? scope token.children (scope.literal terminal? token) := by
  rw [literal_eq_of_decoded hchildren hvalue, hchildren]
  rcases hrule with htag | hiri
  · have hvalid := isLanguageTag_of_token hg htag hgrown
    rw [htag, hterminal]
    dsimp only
    rw [Literal.tagged, String.toList_ofList, if_pos hvalid]
    exact .inl ⟨_, rfl⟩
  · have htoken : terminal? suffix.rule ≠ some .languageTag := by
      change suffix.rule ∈ [embed .iriRef, embed .prefixedName, embed .prefixedSpace] at hiri
      simp only [List.mem_cons, List.not_mem_nil, or_false] at hiri
      rcases hiri with h | h | h <;> simp [h, hterminal]
    split
    · exact absurd ‹_› htoken
    rcases iri_isExplained hg hterminal hscope hiri hgrown with
      ⟨datatype, hdatatype⟩ | ⟨blamed, hblamed, error, hresult, hfault⟩
    · rw [hdatatype]
      show IsExplained _ _ _ (blame suffix (IriScope.lift (Literal.checkedTyped value datatype)))
      rcases checkedTyped_cases value datatype with ⟨l, hl⟩ | ⟨rfl, hrefused⟩
      · rw [hl]
        exact .inl ⟨l, rfl⟩
      · rw [hrefused]
        exact .inr ⟨suffix, by simp, _, rfl, .taggedDatatype hdatatype⟩
    · rw [hresult]
      obtain rfl := List.mem_singleton.mp hblamed
      exact .inr ⟨blamed, by simp, error, rfl, hfault⟩

/-- A string with what follows it denotes a literal, or one of its tokens has a fault. -/
theorem literal_isExplained (hg : HasTokens g embed)
    (hterminal : ∀ t, terminal? (embed t) = some t) (hscope : scope.IsValid)
    {string : ParseTree R} {suffixes : List (ParseTree R)}
    (hchildren : token.children = string :: suffixes)
    (hstring : string.rule ∈ (Terminal.anyString embed).calls)
    (hsuffixes : suffixes = [] ∨ ∃ suffix, suffixes = [suffix] ∧
      (suffix.rule = embed .languageTag ∨ suffix.rule ∈ (Terminal.iri embed).calls))
    (hgrown : ∀ child ∈ token.children, IsGrown g child) :
    IsExplained terminal? scope token.children (scope.literal terminal? token) := by
  have hcontent : ∃ t content, string.rule = embed t ∧
      t.content? = some (content, Escape.Alphabet.literal) := by
    change string.rule ∈ [embed .longQuoted, embed .longSingleQuoted, embed .quoted,
      embed .singleQuoted] at hstring
    simp only [List.mem_cons, List.not_mem_nil, or_false] at hstring
    rcases hstring with h | h | h | h <;> exact ⟨_, _, h, rfl⟩
  obtain ⟨t, content, hrule, ht⟩ := hcontent
  have hmem : string ∈ token.children := by simp [hchildren]
  cases hdecode : Escape.decode .literal (firstText string.children) with
  | none =>
    have hbad := hasBadEscape_of_token hg ht hrule (hgrown string hmem) hdecode
    have htoken : terminal? string.rule = some t := by rw [hrule, hterminal]
    refine .inr ⟨string, hmem, _, ?_, .escapeInString htoken ht hbad⟩
    unfold IriScope.literal
    rw [hchildren]
    dsimp only
    rw [decodeLiteral, hdecode]
    rfl
  | some characters =>
    have hvalue : decodeLiteral (firstText string.children) = .ok (String.ofList characters) := by
      rw [decodeLiteral, hdecode]
    rcases hsuffixes with rfl | ⟨suffix, rfl, hsuffix⟩
    · refine .inl ⟨Literal.plain (String.ofList characters), ?_⟩
      unfold IriScope.literal
      rw [hchildren]
      dsimp only
      rw [hvalue]
      rfl
    · exact suffix_isExplained hg hterminal hscope hchildren hvalue hsuffix
        (hgrown suffix (by simp [hchildren]))

end RdfStore.Syntax
