import RdfStore.Proofs.Peg.Peek
import RdfStore.Proofs.Term.WellFormed
import RdfStore.Proofs.Text.Escape
import RdfStore.Syntax.Terminal

/-!
# Tokens that are read back

How a grammar with the shared tokens reads an IRI between angle brackets, a prefixed name, a
label of a blank node, a string between double quotes and a language tag, each with the node
that it leaves. Tokens without a character that closes them end at a blank or a comma.
-/

set_option autoImplicit false

namespace RdfStore.Syntax

open RdfStore.Peg RdfStore.Text

/-- A grammar has the shared tokens under the given names. -/
structure HasTokens {R : Type} (g : Grammar R) (embed : Terminal → R) : Prop where
  production : ∀ t, g.production (embed t) = t.production embed

/-- A text that starts with a blank or a comma. -/
def IsDelimited (rest : List Char) : Prop := ∃ c tail, rest = c :: tail ∧ (c = ' ' ∨ c = ',')

/-- A text after a token: none, or one that starts with a blank or a comma. -/
def IsClosed (rest : List Char) : Prop := rest = [] ∨ IsDelimited rest

/-- A name before a colon: empty, or one that starts with a letter. -/
def IsPrefixName (name : List Char) : Prop :=
  name = [] ∨ ∃ c cs, name = c :: cs ∧ isNameBase c = true ∧ ∀ d ∈ cs, isNameChar d = true

/-- A name after a colon that needs no escapes and no dots. -/
def IsLocalName (name : List Char) : Prop :=
  ∃ c cs, name = c :: cs ∧ isNameStart c = true ∧ ∀ d ∈ cs, isNameChar d = true

variable {R : Type} {g : Grammar R} {embed : Terminal → R}

/-! ## The nodes of tokens -/

/-- The node of an IRI between angle brackets. -/
def iriOutline (embed : Terminal → R) (cs : List Char) : Outline R :=
  .node (embed .iriRef) ('<' :: (cs ++ ['>'])) [.node (embed .iriContent) cs []]

/-- The node of a prefix with its colon. -/
def prefixOutline (embed : Terminal → R) (name : List Char) : Outline R :=
  .node (embed .prefixedSpace) (name ++ [':']) []

/-- The node of a prefixed name; one without a local name is a prefix with its colon. -/
def prefixedOutline (embed : Terminal → R) (name localName : List Char) : Outline R :=
  if localName = [] then prefixOutline embed name
  else .node (embed .prefixedName) (name ++ ':' :: localName)
    [prefixOutline embed name, .node (embed .localName) localName []]

/-- The node of a blank node with a label. -/
def blankOutline (embed : Terminal → R) (label : List Char) : Outline R :=
  .node (embed .blankNodeLabel) ('_' :: ':' :: label) [.node (embed .label) label []]

/-- The node of a string between double quotes. -/
def stringOutline (embed : Terminal → R) (content : List Char) : Outline R :=
  .node (embed .quoted) ('"' :: (content ++ ['"'])) [.node (embed .quotedContent) content []]

/-- The node of a language tag. -/
def tagOutline (embed : Terminal → R) (tag : List Char) : Outline R :=
  .node (embed .languageTag) ('@' :: tag) []

/-! ## Rules without blanks -/

section Rules

variable {mode : Mode} {taken rest : List Char}
  {nodes : List (Outline R)}

/-- The rule of a token is not made of words. -/
theorem manner_ne_words (embed : Terminal → R) (t : Terminal) :
    (t.production embed).manner ≠ .words := by
  cases t <;> exact nofun

/-- A call of the rule of a token leaves a node, unless its caller is a token. -/
theorem isVisible_terminal (embed : Terminal → R) (t : Terminal) (hmode : mode ≠ .token) :
    (t.production embed).manner.isVisible mode = true := by
  have hcaller : (mode != .token) = true := bne_iff_ne.mpr hmode
  cases t <;> first | exact hcaller | rfl

/-- The rule of a token leaves a node with its text where its parts are read. -/
theorem reads_terminal (hg : HasTokens g embed) (t : Terminal) (hmode : mode ≠ .token)
    (h : Reads g ((t.production embed).manner.bodyMode mode) (t.production embed).body
      (taken ++ rest) nodes rest) :
    Reads g mode (.rule (embed t)) (taken ++ rest) [.node (embed t) taken nodes] rest := by
  have hwords := manner_ne_words embed t
  have hvisible := isVisible_terminal embed t hmode
  rw [← hg.production t] at hwords hvisible h
  exact h.rule_text hwords hvisible

/-- The rule of a token is refused where its parts are. -/
theorem refuses_terminal (hg : HasTokens g embed) (t : Terminal)
    (h : Refuses g ((t.production embed).manner.bodyMode mode) (t.production embed).body rest) :
    Refuses g mode (.rule (embed t)) rest := by
  rw [← hg.production t] at h
  exact h.rule

/-- Without a bracket there is no IRI between brackets. -/
theorem refuses_iriRef (hg : HasTokens g embed) {cs : List Char}
    (h : cs.head? ≠ some '<') : Refuses g mode (.rule (embed .iriRef)) cs := by
  have hfirst : Refuses g .compound (.one '<') cs := by
    cases cs with
    | nil => exact refuses_of_peek (starts_of_ne (by decide) _) 0 rfl
    | cons c rest => exact refuses_one (fun hc => h (congrArg some hc)) rest
  exact refuses_terminal hg .iriRef hfirst.seq

/-- A repeated expression reads pieces that it reads one by one, whatever follows them. -/
theorem repeats_flatMap [g.HasBlanks] (hmode : mode ≠ .words) {item : Expr R}
    {f : Char → List Char} {cs : List Char}
    (h : ∀ c ∈ cs, ∀ rest, Reads g mode item (f c ++ rest) [] rest)
    (hstop : Refuses g mode item rest) :
    Repeats g mode item (cs.flatMap f ++ rest) [] rest := by
  induction cs with
  | nil =>
    refine Refuses.stop ?_
    rw [Grammar.skip_of_ne hmode]
    exact hstop
  | cons c cs ih =>
    rw [List.flatMap_cons, List.append_assoc]
    have hpiece : Reads g mode item (g.skip mode (f c ++ (cs.flatMap f ++ rest))) []
        (cs.flatMap f ++ rest) := by
      rw [Grammar.skip_of_ne hmode]
      exact h c List.mem_cons_self _
    exact hpiece.repeats (ih fun d hd => h d (List.mem_cons_of_mem c hd))

/-- A repeated expression reads characters that it reads one by one. -/
theorem repeats_chars [g.HasBlanks] (hmode : mode ≠ .words) {item : Expr R} {cs : List Char}
    (h : ∀ c ∈ cs, ∀ rest, Reads g mode item (c :: rest) [] rest)
    (hstop : Refuses g mode item rest) : Repeats g mode item (cs ++ rest) [] rest := by
  have hpieces := repeats_flatMap hmode (f := fun c => [c]) h hstop
  rw [List.flatMap_singleton'] at hpieces
  exact hpieces

end Rules

/-! ## Digits -/

/-- The decimal digits. -/
def decimalDigits : List Char := ['0', '1', '2', '3', '4', '5', '6', '7', '8', '9']

/-- An ASCII digit is one of ten. -/
theorem mem_decimalDigits {c : Char} (h : isAsciiDigit c = true) : c ∈ decimalDigits := by
  obtain ⟨hlow, hhigh⟩ := Bool.and_eq_true_iff.mp h
  have hdigits : ∀ n < 0x3a, 0x30 ≤ n → Char.ofNat n ∈ decimalDigits := by decide
  have hmem := hdigits c.toNat (Nat.lt_succ_of_le (of_decide_eq_true hhigh))
    (of_decide_eq_true hlow)
  rwa [Char.ofNat_toNat] at hmem

/-! ## Delimiters -/

/-- Where a blank or a comma tells that an expression fails, it is refused before delimited
text; both tests are computed. -/
theorem IsDelimited.refuses {mode : Mode} {rest : List Char} (h : IsDelimited rest)
    (hmode : mode ≠ .words) {e : Expr R}
    (hblank : e.peek (g.peek (some ' ') 0) (some ' ') = .fails)
    (hcomma : e.peek (g.peek (some ',') 0) (some ',') = .fails) : Refuses g mode e rest := by
  obtain ⟨c, tail, rfl, rfl | rfl⟩ := h
  · exact refuses_of_peek (starts_of_ne hmode _) 0 hblank
  · exact refuses_of_peek (starts_of_ne hmode _) 0 hcomma

/-- So it is where the text is over too, if the end tells it as well. -/
theorem IsClosed.refuses {mode : Mode} {rest : List Char} (h : IsClosed rest)
    (hmode : mode ≠ .words) {e : Expr R} (hend : e.peek (g.peek none 0) none = .fails)
    (hblank : e.peek (g.peek (some ' ') 0) (some ' ') = .fails)
    (hcomma : e.peek (g.peek (some ',') 0) (some ',') = .fails) : Refuses g mode e rest := by
  rcases h with rfl | h
  · exact refuses_of_peek (starts_of_ne hmode []) 0 hend
  · exact h.refuses hmode hblank hcomma

/-! ## IRIs -/

/-- A numeric escape starts with a backslash. -/
theorem refuses_numericEscape {mode : Mode} {c : Char} (h : c ≠ '\\') (rest : List Char) :
    Refuses g mode Terminal.numericEscape (c :: rest) := by
  have hslash : ∀ letter, stripText? false ['\\', letter] (c :: rest) = none := fun letter =>
    if_neg (by simp [Ne.symm h])
  exact (refuses_text (hslash 'u')).seq.choice (refuses_text (hslash 'U')).seq

section Tokens

variable [g.HasBlanks] {rest : List Char}

/-- An IRI is read up to its closing bracket. -/
theorem reads_iriRef (hg : HasTokens g embed) {cs : List Char}
    (h : ∀ c ∈ cs, isIriChar c = true) (rest : List Char) :
    Reads g .words (.rule (embed .iriRef)) ('<' :: (cs ++ '>' :: rest)) [iriOutline embed cs]
      rest := by
  have hitem : ∀ c ∈ cs, ∀ rest,
      Reads g .token (.choice Terminal.numericEscape (.char isIriChar)) (c :: rest) [] rest := by
    intro c hc rest
    have hslash : c ≠ '\\' := fun heq => absurd (heq ▸ h c hc) (by decide)
    exact Reads.choice_right (refuses_numericEscape hslash rest) (reads_char (h c hc) rest)
  have hclose : Refuses g .token (.choice Terminal.numericEscape (.char isIriChar))
      ('>' :: rest) :=
    (refuses_numericEscape (by decide) rest).choice (refuses_char (by decide) rest)
  have hcontent : Reads g .compound (.rule (embed .iriContent)) (cs ++ '>' :: rest)
      [.node (embed .iriContent) cs []] ('>' :: rest) :=
    reads_terminal hg .iriContent (by decide) ((repeats_chars (by decide) hitem hclose).star rfl)
  have hbody : Reads g .compound (.seqs [.one '<', .rule (embed .iriContent), .one '>'])
      ('<' :: (cs ++ '>' :: rest)) [.node (embed .iriContent) cs []] rest :=
    (reads_char rfl _).seq (hcontent.seq (reads_char rfl rest))
  have htext : '<' :: (cs ++ '>' :: rest) = ('<' :: (cs ++ ['>'])) ++ rest := by
    rw [List.cons_append, List.append_assoc, List.singleton_append]
  rw [htext] at hbody ⊢
  exact reads_terminal hg .iriRef (by decide) hbody

/-! ## Names with dots -/

/-- After dots that do not end a name there is another character of the name. -/
theorem repeats_dots {cs : List Char} (hall : ∀ c ∈ cs, (isNameChar c || c == '.') = true)
    (hne : cs ≠ []) (hlast : cs.getLast? ≠ some '.') (rest : List Char) :
    ∃ d mid, isNameChar d = true ∧ Repeats g .token (.one '.') (cs ++ rest) [] (d :: mid) := by
  induction cs with
  | nil => exact absurd rfl hne
  | cons c cs ih =>
    rcases Bool.or_eq_true_iff.mp (hall c List.mem_cons_self) with hc | hc
    · have hdot : c ≠ '.' := by
        rintro rfl
        exact absurd hc (by decide)
      have hstop : Refuses g .token (.one '.') (c :: (cs ++ rest)) := refuses_one hdot (cs ++ rest)
      exact ⟨c, cs ++ rest, hc, hstop.stop⟩
    · obtain rfl := beq_iff_eq.mp hc
      cases cs with
      | nil => exact absurd rfl hlast
      | cons d cs =>
        rw [List.getLast?_cons_cons] at hlast
        obtain ⟨e, mid, he, hrest⟩ :=
          ih (fun c hc => hall c (List.mem_cons_of_mem _ hc)) (List.cons_ne_nil d cs) hlast
        have hfirst : Reads g .token (.one '.') ('.' :: (d :: cs ++ rest)) [] (d :: cs ++ rest) :=
          reads_char rfl _
        exact ⟨e, mid, he, hfirst.repeats hrest⟩

/-- The characters of a name and its inner dots are read up to the end of a token. -/
theorem repeats_dotted {cs : List Char} (hall : ∀ c ∈ cs, (isNameChar c || c == '.') = true)
    (hlast : cs.getLast? ≠ some '.') (hrest : IsClosed rest) :
    Repeats g .token (.choice (.char isNameChar) (Terminal.innerDot (.char isNameChar)))
      (cs ++ rest) [] rest := by
  induction cs with
  | nil =>
    have hstop : Refuses g .token
        (.choice (.char isNameChar) (Terminal.innerDot (.char isNameChar))) rest :=
      hrest.refuses (by decide) rfl rfl rfl
    exact Refuses.stop hstop
  | cons c cs ih =>
    have hallRest := fun d hd => hall d (List.mem_cons_of_mem c hd)
    have hlastRest : cs.getLast? ≠ some '.' := by
      cases cs with
      | nil => exact nofun
      | cons d cs => rwa [List.getLast?_cons_cons] at hlast
    suffices hitem : Reads g .token
        (.choice (.char isNameChar) (Terminal.innerDot (.char isNameChar))) (c :: (cs ++ rest)) []
        (cs ++ rest) from hitem.repeats (ih hallRest hlastRest)
    cases hname : isNameChar c with
    | true => exact (reads_char hname _).choice_left
    | false =>
      have hc := hall c List.mem_cons_self
      rw [hname, Bool.false_or, beq_iff_eq] at hc
      subst hc
      have hne : cs ≠ [] := by
        rintro rfl
        exact hlast rfl
      -- a dot belongs to the name because one of its characters comes after this and other dots
      obtain ⟨d, mid, hd, hdots⟩ := repeats_dots (g := g) hallRest hne hlastRest rest
      have hnext : Reads g .token (.seq (.star (.one '.')) (.char isNameChar)) (cs ++ rest) []
          mid := (hdots.star rfl).seq (reads_char hd mid)
      have hdot : Reads g .token (Terminal.innerDot (.char isNameChar)) ('.' :: (cs ++ rest)) []
          (cs ++ rest) := (reads_char rfl _).seq hnext.ahead
      exact Reads.choice_right (refuses_char hname _) hdot

/-! ## Blank nodes -/

/-- A label is read up to the end of a token. -/
theorem reads_label {label : List Char} (h : Validity.isLabel label = true)
    (hrest : IsClosed rest) :
    Reads g .token (Terminal.production embed .label).body (label ++ rest) [] rest := by
  cases label with
  | nil => cases h
  | cons c cs =>
    obtain ⟨h, hlast⟩ := Bool.and_eq_true_iff.mp h
    obtain ⟨hfirst, hall⟩ := Bool.and_eq_true_iff.mp h
    have hlastRest : cs.getLast? ≠ some '.' := by
      cases cs with
      | nil => exact nofun
      | cons d cs =>
        rw [List.getLast?_cons_cons] at hlast
        exact bne_iff_ne.mp hlast
    have hnames := repeats_dotted (g := g) (List.all_eq_true.mp hall) hlastRest hrest
    exact (reads_char hfirst _).seq (hnames.star rfl)

/-- A blank node with a label is read up to a delimiter. -/
theorem reads_blankNodeLabel (hg : HasTokens g embed) {label : List Char}
    (h : Validity.isLabel label = true) (hrest : IsDelimited rest) :
    Reads g .words (.rule (embed .blankNodeLabel)) ('_' :: ':' :: (label ++ rest))
      [blankOutline embed label] rest := by
  have hlabel : Reads g .compound (.rule (embed .label)) (label ++ rest)
      [.node (embed .label) label []] rest :=
    reads_terminal hg .label (by decide) (reads_label h (.inr hrest))
  have hbody : Reads g .compound (Terminal.production embed .blankNodeLabel).body
      (('_' :: ':' :: label) ++ rest) [.node (embed .label) label []] rest :=
    (reads_text ['_', ':'] _).seq hlabel
  exact reads_terminal hg .blankNodeLabel (by decide) hbody

/-! ## Prefixed names -/

/-- A prefix is read with its colon. -/
theorem reads_prefixedSpace (hg : HasTokens g embed) {mode : Mode} (hmode : mode ≠ .token)
    {name : List Char} (h : IsPrefixName name) (rest : List Char) :
    Reads g mode (.rule (embed .prefixedSpace)) (name ++ ':' :: rest) [prefixOutline embed name]
      rest := by
  have hname : Reads g .token (.opt Terminal.prefixName) (name ++ ':' :: rest) []
      (':' :: rest) := by
    rcases h with rfl | ⟨c, cs, rfl, hc, hcs⟩
    · have hcolon : Refuses g .token Terminal.prefixName (':' :: rest) :=
        refuses_of_peek (starts_of_ne (by decide) _) 0 rfl
      exact hcolon.opt
    · have hitem : ∀ d ∈ cs, ∀ rest, Reads g .token
          (.choice (.char isNameChar) (Terminal.innerDot (.char isNameChar))) (d :: rest) []
          rest := fun d hd rest => (reads_char (hcs d hd) rest).choice_left
      have hcolon : Refuses g .token
          (.choice (.char isNameChar) (Terminal.innerDot (.char isNameChar))) (':' :: rest) :=
        refuses_of_peek (starts_of_ne (by decide) _) 0 rfl
      have hread : Reads g .token Terminal.prefixName (c :: cs ++ ':' :: rest) [] (':' :: rest) :=
        (reads_char hc _).seq ((repeats_chars (by decide) hitem hcolon).star rfl)
      exact hread.choice_left
  have hbody : Reads g .token (Terminal.production embed .prefixedSpace).body
      (name ++ ':' :: rest) [] rest := hname.seq (reads_char rfl rest)
  have htext : name ++ ':' :: rest = (name ++ [':']) ++ rest := by
    rw [List.append_assoc, List.singleton_append]
  rw [htext] at hbody ⊢
  exact reads_terminal hg .prefixedSpace hmode hbody

/-- What starts like no name and with no colon is no prefix. -/
theorem refuses_prefixedSpace (hg : HasTokens g embed) {mode : Mode} {c : Char}
    (hbase : isNameBase c = false) (hcolon : c ≠ ':') (rest : List Char) :
    Refuses g mode (.rule (embed .prefixedSpace)) (c :: rest) := by
  have hname : Reads g .token (.opt Terminal.prefixName) (c :: rest) [] (c :: rest) :=
    (refuses_char hbase rest).seq.opt
  exact refuses_terminal hg .prefixedSpace (hname.seq_refuses (refuses_one hcolon rest))

/-- A local name is read up to a delimiter. -/
theorem reads_prefixedName (hg : HasTokens g embed) {name localName : List Char}
    (hname : IsPrefixName name) (hlocal : IsLocalName localName) (hrest : IsDelimited rest) :
    Reads g .words (.rule (embed .prefixedName)) (name ++ ':' :: (localName ++ rest))
      [prefixedOutline embed name localName] rest := by
  obtain ⟨c, cs, rfl, hc, hcs⟩ := hlocal
  have hitem : ∀ d ∈ cs, ∀ rest, Reads g .token
      (.choice Terminal.localChar (Terminal.innerDot Terminal.localChar)) (d :: rest) [] rest :=
    fun d hd rest => (reads_char (hcs d hd) rest).choice_left.choice_left
  have hstop : Refuses g .token
      (.choice Terminal.localChar (Terminal.innerDot Terminal.localChar)) rest :=
    hrest.refuses (by decide) rfl rfl
  have hnames : Reads g .token (Terminal.production embed .localName).body (c :: cs ++ rest) []
      rest := (reads_char hc _).choice_left.seq ((repeats_chars (by decide) hitem hstop).star rfl)
  have hlocal : Reads g .compound (.rule (embed .localName)) (c :: cs ++ rest)
      [.node (embed .localName) (c :: cs) []] rest :=
    reads_terminal hg .localName (by decide) hnames
  have hbody : Reads g .compound (Terminal.production embed .prefixedName).body
      (name ++ ':' :: (c :: cs ++ rest))
      [prefixOutline embed name, .node (embed .localName) (c :: cs) []] rest :=
    (reads_prefixedSpace hg (by decide) hname _).seq hlocal
  have htext : name ++ ':' :: (c :: cs ++ rest) = (name ++ ':' :: c :: cs) ++ rest := by
    rw [List.append_assoc]
    rfl
  unfold prefixedOutline
  rw [if_neg (List.cons_ne_nil c cs)]
  rw [htext] at hbody ⊢
  exact reads_terminal hg .prefixedName (by decide) hbody

/-- Without a local name there is no prefixed name. -/
theorem refuses_prefixedName (hg : HasTokens g embed) {name : List Char}
    (hname : IsPrefixName name) (hrest : IsDelimited rest) :
    Refuses g .words (.rule (embed .prefixedName)) (name ++ ':' :: rest) := by
  have hfirst : Refuses g .token (Terminal.production embed .localName).body rest :=
    hrest.refuses (by decide) rfl rfl
  have hlocal : Refuses g .compound (.rule (embed .localName)) rest :=
    refuses_terminal hg .localName hfirst
  have hspace : Reads g .compound (.rule (embed .prefixedSpace)) (name ++ ':' :: rest)
      [prefixOutline embed name] rest := reads_prefixedSpace hg (by decide) hname rest
  exact refuses_terminal hg .prefixedName (hspace.seq_refuses hlocal)

/-- A word is no IRI before a character that neither goes on with it nor makes it a prefix. -/
theorem refuses_iri_before (hg : HasTokens g embed) {c e : Char} {cs : List Char}
    (hc : isNameBase c = true) (hcs : ∀ d ∈ cs, isNameChar d = true) (hname : isNameChar e = false)
    (hdot : e ≠ '.') (hcolon : e ≠ ':') (rest : List Char) :
    Refuses g .words (Terminal.iri embed) (c :: cs ++ e :: rest) := by
  have hitem : ∀ d ∈ cs, ∀ rest, Reads g .token
      (.choice (.char isNameChar) (Terminal.innerDot (.char isNameChar))) (d :: rest) []
      rest := fun d hd rest => (reads_char (hcs d hd) rest).choice_left
  have hstop : Refuses g .token
      (.choice (.char isNameChar) (Terminal.innerDot (.char isNameChar))) (e :: rest) :=
    (refuses_char hname rest).choice (refuses_one hdot rest).seq
  -- the word could be a prefix, which then misses its colon
  have hread : Reads g .token (.opt Terminal.prefixName) (c :: cs ++ e :: rest) [] (e :: rest) :=
    ((reads_char hc _).seq ((repeats_chars (by decide) hitem hstop).star rfl)).choice_left
  have hspace : ∀ {mode}, Refuses g mode (.rule (embed .prefixedSpace)) (c :: cs ++ e :: rest) :=
    refuses_terminal hg .prefixedSpace (hread.seq_refuses (refuses_one hcolon rest))
  have hreference : Refuses g .words (.rule (embed .iriRef)) (c :: cs ++ e :: rest) := by
    refine refuses_iriRef hg ?_
    rintro ⟨⟩
    cases hc
  exact hreference.choice ((refuses_terminal hg .prefixedName hspace.seq).choice hspace)

/-- A word that no colon follows is no IRI. -/
theorem refuses_iri_of_word (hg : HasTokens g embed) {c : Char} {cs : List Char}
    (hc : isNameBase c = true) (hcs : ∀ d ∈ cs, isNameChar d = true) (hrest : IsDelimited rest) :
    Refuses g .words (Terminal.iri embed) (c :: cs ++ rest) := by
  obtain ⟨e, tail, rfl, rfl | rfl⟩ := hrest
  · exact refuses_iri_before hg hc hcs rfl (by decide) (by decide) tail
  · exact refuses_iri_before hg hc hcs rfl (by decide) (by decide) tail

/-! ## Language tags -/

/-- A part of a language tag after a hyphen. -/
def subtag : Expr R := .seq (.one '-') (.plus (.char isAsciiAlphanumeric))

/-- After a hyphen and a letter or digit, the rest of a subtag is read, and then the others. -/
theorem repeats_subtag {cs : List Char} {c : Char} (hc : isAsciiAlphanumeric c = true)
    (h : ∃ mid, Repeats g .token (.char isAsciiAlphanumeric) (cs ++ rest) [] mid ∧
      Repeats g .token subtag mid [] rest) :
    Repeats g .token subtag ('-' :: c :: (cs ++ rest)) [] rest := by
  obtain ⟨mid, hletters, hmore⟩ := h
  have hfirst : Reads g .token subtag ('-' :: c :: (cs ++ rest)) [] mid :=
    (reads_one '-' _).seq ((reads_char hc _).seq (hletters.star rfl))
  exact hfirst.repeats hmore

/-- The rest of a subtag is read, and then the other subtags. -/
theorem repeats_subtagRest {cs : List Char} (h : Validity.isSubtags.isSubtagRest cs = true)
    (hrest : IsClosed rest) :
    ∃ mid, Repeats g .token (.char isAsciiAlphanumeric) (cs ++ rest) [] mid ∧
      Repeats g .token subtag mid [] rest := by
  fun_induction Validity.isSubtags.isSubtagRest cs with
  | case1 =>
    have hletters : Refuses g .token (.char isAsciiAlphanumeric) rest :=
      hrest.refuses (by decide) rfl rfl rfl
    have hmore : Refuses g .token subtag rest := hrest.refuses (by decide) rfl rfl rfl
    exact ⟨rest, hletters.stop, hmore.stop⟩
  | case2 c cs ih =>
    obtain ⟨hc, hcs⟩ := Bool.and_eq_true_iff.mp h
    have hhyphen : Refuses g .token (.char isAsciiAlphanumeric) ('-' :: c :: (cs ++ rest)) :=
      refuses_char (by decide) _
    exact ⟨'-' :: c :: (cs ++ rest), hhyphen.stop, repeats_subtag hc (ih hcs)⟩
  | case3 c cs _ ih =>
    obtain ⟨hc, hcs⟩ := Bool.and_eq_true_iff.mp h
    obtain ⟨mid, hletters, hmore⟩ := ih hcs
    have hfirst : Reads g .token (.char isAsciiAlphanumeric) (c :: (cs ++ rest)) []
        (cs ++ rest) := reads_char hc _
    exact ⟨mid, hfirst.repeats hletters, hmore⟩

/-- The subtags of a language tag are read up to its end, and no letter comes first. -/
theorem repeats_subtags {cs : List Char} (h : Validity.isSubtags cs = true)
    (hrest : IsClosed rest) :
    Repeats g .token subtag (cs ++ rest) [] rest ∧
      Refuses g .token (.char isAsciiLetter) (cs ++ rest) := by
  unfold Validity.isSubtags at h
  split at h
  · have hmore : Refuses g .token subtag rest := hrest.refuses (by decide) rfl rfl rfl
    exact ⟨hmore.stop, hrest.refuses (by decide) rfl rfl rfl⟩
  · obtain ⟨hc, hcs⟩ := Bool.and_eq_true_iff.mp h
    exact ⟨repeats_subtag hc (repeats_subtagRest hcs hrest), refuses_char (by decide) _⟩
  · cases h

/-- A language tag is read up to the end of a token. -/
theorem reads_languageTag (hg : HasTokens g embed) {mode : Mode} (hmode : mode ≠ .token)
    {tag : List Char} (h : Validity.isLanguageTag tag = true) (hrest : IsClosed rest) :
    Reads g mode (.rule (embed .languageTag)) ('@' :: (tag ++ rest)) [tagOutline embed tag]
      rest := by
  obtain ⟨hletters, hsubtags⟩ := Bool.and_eq_true_iff.mp h
  have hmember : ∀ c ∈ tag.takeWhile isAsciiLetter, isAsciiLetter c = true :=
    List.all_eq_true.mp List.all_takeWhile
  have htag : tag = tag.takeWhile isAsciiLetter ++ tag.dropWhile isAsciiLetter :=
    List.takeWhile_append_dropWhile.symm
  generalize tag.takeWhile isAsciiLetter = letters at hletters hmember htag
  generalize tag.dropWhile isAsciiLetter = subtags at hsubtags htag
  cases letters with
  | nil => cases hletters
  | cons c cs =>
    subst htag
    obtain ⟨hmore, hstop⟩ := repeats_subtags (g := g) hsubtags hrest
    have hitem : ∀ d ∈ cs, ∀ rest,
        Reads g .token (.char isAsciiLetter) (d :: rest) [] rest := fun d hd rest =>
      reads_char (hmember d (List.mem_cons_of_mem c hd)) rest
    have hcs : Reads g .token (.star (.char isAsciiLetter)) (cs ++ (subtags ++ rest)) []
        (subtags ++ rest) := (repeats_chars (by decide) hitem hstop).star rfl
    have hplus : Reads g .token (.plus (.char isAsciiLetter)) (c :: (cs ++ (subtags ++ rest))) []
        (subtags ++ rest) := (reads_char (hmember c List.mem_cons_self) _).seq hcs
    have hbody : Reads g .token (Terminal.production embed .languageTag).body
        ('@' :: (c :: (cs ++ (subtags ++ rest)))) [] rest :=
      (reads_one '@' _).seq (hplus.seq (hmore.star rfl))
    have htext : '@' :: (c :: (cs ++ (subtags ++ rest))) =
        ('@' :: (c :: cs ++ subtags)) ++ rest := by
      rw [List.cons_append, List.append_assoc]
      rfl
    rw [htext] at hbody
    exact reads_terminal hg .languageTag hmode hbody

/-! ## Strings -/

/-- The digits of a numeric escape are hexadecimal. -/
theorem isHexDigit_hexDigit (n : Nat) : isHexDigit (Escape.hexDigit (n % 16)) = true := by
  have hdigits : ∀ d < 16, isHexDigit (Escape.hexDigit d) = true := by decide
  exact hdigits (n % 16) (Nat.mod_lt n (by decide))

/-- A character of a string, as it is written. -/
def stringChar : Expr R :=
  .choices [Terminal.letterEscape, Terminal.numericEscape,
    .char fun c => !(c == '"' || c == '\\' || c == '\r' || c == '\n')]

/-- A letter after a backslash is read. -/
theorem reads_letterEscape {c : Char} (h : isEscapeLetter c = true) (rest : List Char) :
    Reads g .token stringChar ('\\' :: c :: rest) [] rest := by
  have hescape : Reads g .token Terminal.letterEscape ('\\' :: c :: rest) [] rest :=
    (reads_one '\\' (c :: rest)).seq (reads_char h rest)
  exact hescape.choice_left

/-- The number of a character after a backslash is read. -/
theorem reads_numericEscape (n : Nat) (rest : List Char) :
    Reads g .token stringChar ('\\' :: 'u' :: (Escape.hex4 n ++ rest)) [] rest := by
  have hletter : Refuses g .token Terminal.letterEscape
      ('\\' :: 'u' :: (Escape.hex4 n ++ rest)) :=
    (reads_one '\\' _).seq_refuses (refuses_char rfl _)
  have hdigit : ∀ n rest, Reads g .token Terminal.hex (Escape.hexDigit (n % 16) :: rest) [] rest :=
    fun n rest => reads_char (isHexDigit_hexDigit n) rest
  have hdigits : Reads g .token (.seqs [Terminal.hex, Terminal.hex, Terminal.hex, Terminal.hex])
      (Escape.hex4 n ++ rest) [] rest :=
    (hdigit _ _).seq ((hdigit _ _).seq ((hdigit _ _).seq (hdigit n rest)))
  have hescape : Reads g .token Terminal.numericEscape
      ('\\' :: 'u' :: (Escape.hex4 n ++ rest)) [] rest :=
    ((reads_text ['\\', 'u'] _).seq hdigits).choice_left
  exact Reads.choice_right hletter hescape.choice_left

/-- The letters that stand for characters are those that the grammar takes. -/
theorem isEscapeLetter_of_single {letter c : Char} (h : Escape.single? letter = some c) :
    isEscapeLetter letter = true := by
  cases hletter : isEscapeLetter letter with
  | true => rfl
  | false =>
    simp only [isEscapeLetter, Bool.or_eq_false_iff, beq_eq_false_iff_ne] at hletter
    simp [Escape.single?, hletter] at h

/-- Every character of a string is read as it is written. -/
theorem reads_encodeChar (c : Char) (rest : List Char) :
    Reads g .token stringChar (Escape.encodeChar c ++ rest) [] rest := by
  rcases Escape.encodeChar_cases c with ⟨letter, hc, hletter, -⟩ | ⟨hc, -⟩ |
    ⟨hc, hquote, hslash, hnewline, hreturn⟩
  · rw [hc]
    exact reads_letterEscape (isEscapeLetter_of_single hletter) rest
  · rw [hc]
    exact reads_numericEscape c.toNat rest
  · rw [hc]
    have hletter : Refuses g .token Terminal.letterEscape (c :: rest) :=
      (refuses_one hslash rest).seq
    refine Reads.choice_right hletter (Reads.choice_right (refuses_numericEscape hslash rest) ?_)
    exact reads_char (by simp [hquote, hslash, hnewline, hreturn]) rest

/-- A string between double quotes is read up to the closing one. -/
theorem reads_quoted (hg : HasTokens g embed) (value rest : List Char) :
    Reads g .words (.rule (embed .quoted)) ('"' :: (Escape.encode value ++ '"' :: rest))
      [stringOutline embed (Escape.encode value)] rest := by
  have hclose : Refuses g .token stringChar ('"' :: rest) :=
    refuses_of_peek (starts_of_ne (by decide) _) 0 rfl
  have hchars : Repeats g .token stringChar (Escape.encode value ++ '"' :: rest) []
      ('"' :: rest) :=
    repeats_flatMap (by decide) (fun c _ rest => reads_encodeChar c rest) hclose
  have hcontent : Reads g .compound (.rule (embed .quotedContent))
      (Escape.encode value ++ '"' :: rest)
      [.node (embed .quotedContent) (Escape.encode value) []] ('"' :: rest) :=
    reads_terminal hg .quotedContent (by decide) (hchars.star rfl)
  have hbody : Reads g .compound (Terminal.production embed .quoted).body
      ('"' :: (Escape.encode value ++ '"' :: rest))
      [.node (embed .quotedContent) (Escape.encode value) []] rest :=
    (reads_text ['"'] _).seq (hcontent.seq (reads_text ['"'] rest))
  have htext : '"' :: (Escape.encode value ++ '"' :: rest) =
      ('"' :: (Escape.encode value ++ ['"'])) ++ rest := by
    rw [List.cons_append, List.append_assoc, List.singleton_append]
  rw [htext] at hbody ⊢
  exact reads_terminal hg .quoted (by decide) hbody

/-- A string between double quotes is read, not one between three of them. -/
theorem reads_anyString (hg : HasTokens g embed) (value : List Char) {rest : List Char}
    (hrest : rest.head? ≠ some '"') :
    Reads g .words (Terminal.anyString embed) ('"' :: (Escape.encode value ++ '"' :: rest))
      [stringOutline embed (Escape.encode value)] rest := by
  have hlong : Refuses g .words (.rule (embed .longQuoted))
      ('"' :: (Escape.encode value ++ '"' :: rest)) := by
    refine refuses_terminal hg .longQuoted (refuses_text ?_).seq
    -- an empty string is no start of three quotes, as no third one follows it
    cases hvalue : Escape.encode value with
    | nil =>
      cases rest with
      | nil => rfl
      | cons c rest =>
        have hc : '"' ≠ c := fun heq => hrest (congrArg some heq.symm)
        simp [stripText?, hc]
    | cons d cs =>
      have hd : '"' ≠ d := (Escape.head_encode hvalue).symm
      simp [stripText?, hd]
  have hsingle : Refuses g .words (.rule (embed .longSingleQuoted))
      ('"' :: (Escape.encode value ++ '"' :: rest)) :=
    refuses_terminal hg .longSingleQuoted (refuses_text rfl).seq
  exact Reads.choice_right hlong
    (Reads.choice_right hsingle (reads_quoted hg value rest).choice_left)

end Tokens

end RdfStore.Syntax
