import Mathlib.Data.List.Basic
import RdfStore.Proofs.Query.AskText

/-!
# Texts of expressions

An expression is an operand, which may have operators before it, and goes on where another operator
follows. A sign is such an operator wherever an operand may start, so a number inside an expression
is read without its sign.
-/

set_option autoImplicit false

namespace RdfStore.Query

open RdfStore.Peg RdfStore.Syntax RdfStore.Text
open RdfStore.Turtle (wordsOf wordsOf_cons wordsOf_blank isWordStart)

variable {cs mid next rest : List Char} {nodes : List (Outline Symbol)}

/-- A choice reads what one of its expressions reads where those before it refuse. -/
theorem leads_choices {e : Phrase} {before : List Phrase} (after : List Phrase)
    (hbefore : ∀ d ∈ before, Refuses grammar .words d cs) (h : Leads grammar e cs nodes next) :
    Leads grammar (.choices (before ++ e :: after)) cs nodes next := by
  induction before with
  | nil =>
    cases after with
    | nil => exact h
    | cons d after => exact h.choice_left
  | cons d before ih =>
    have hrest := ih fun d hd => hbefore d (List.mem_cons_of_mem _ hd)
    have hfirst := hbefore d List.mem_cons_self
    cases before with
    | nil => exact Leads.choice_right hfirst hrest
    | cons d' before => exact Leads.choice_right hfirst hrest

/-- A choice refuses where its expressions do. -/
theorem refuses_choices {e : Phrase} {more : List Phrase}
    (h : ∀ d ∈ e :: more, Refuses grammar .words d cs) :
    Refuses grammar .words (.choices (e :: more)) cs := by
  induction more generalizing e with
  | nil => exact h e List.mem_cons_self
  | cons d more ih =>
    exact (h e List.mem_cons_self).choice (ih fun d hd => h d (List.mem_cons_of_mem _ hd))

/-! ## Variables -/

/-- The characters of a variable's name. -/
def IsVariableName (name : List Char) : Prop :=
  ∃ c tail, name = c :: tail ∧ isLabelStart c = true ∧ ∀ d ∈ tail, isVariableChar d = true

/-- The node of a variable. -/
def varOutline (name : List Char) : Outline Symbol := .node .var ('?' :: name) []

/-- Characters of a kind are read up to one that is not of it. -/
theorem reads_run {isKind : Char → Bool} {cs : List Char} (h : ∀ d ∈ cs, isKind d = true)
    {e : Char} (he : isKind e = false) (rest : List Char) :
    Reads grammar .token (.star (.char isKind)) (cs ++ e :: rest) [] (e :: rest) :=
  (repeats_chars (by decide) (fun d hd rest => reads_char (h d hd) rest)
    (refuses_char he rest)).star rfl

/-- A variable with one of its marks is read up to a character that does not go on with its name. -/
theorem reads_marked {mark : Char} (hmark : (mark == '?' || mark == '$') = true) {name : List Char}
    (h : IsVariableName name) {e : Char} (he : isVariableChar e = false) (rest : List Char) :
    Reads grammar .words (.rule .var) (mark :: (name ++ e :: rest))
      [.node .var (mark :: name) []] (e :: rest) := by
  obtain ⟨c, tail, rfl, hc, htail⟩ := h
  have hbody : Reads grammar .token (grammar.production .var).body
      (mark :: (c :: tail ++ e :: rest)) [] (e :: rest) :=
    (reads_char hmark _).seq ((reads_char hc _).seq (reads_run htail he rest))
  rw [← List.cons_append] at hbody ⊢
  exact Reads.rule_text (by decide) rfl hbody

/-- A variable is read up to the first character that cannot belong to its name. -/
theorem reads_var {name : List Char} (h : IsVariableName name) {e : Char}
    (he : isVariableChar e = false) (rest : List Char) :
    Reads grammar .words (.rule .var) ('?' :: (name ++ e :: rest)) [varOutline name]
      (e :: rest) := reads_marked rfl h he rest

/-! ## Numbers -/

/-- One decimal digit or more. -/
def IsDigits (digits : List Char) : Prop :=
  ∃ c tail, digits = c :: tail ∧ ∀ d ∈ c :: tail, isAsciiDigit d = true

section Numbers

variable {digits : List Char}

/-- Digits are read up to the first character that is none. -/
theorem reads_digits (h : IsDigits digits) {e : Char} (he : isAsciiDigit e = false)
    (rest : List Char) :
    Reads grammar .token Terminal.digits (digits ++ e :: rest) [] (e :: rest) := by
  obtain ⟨c, tail, rfl, hdigits⟩ := h
  have htail : ∀ d ∈ tail, isAsciiDigit d = true := fun d hd =>
    hdigits d (List.mem_cons_of_mem c hd)
  exact (reads_char (hdigits c List.mem_cons_self) _).seq (reads_run htail he rest)

/-- In front of digits no sign is read. -/
theorem reads_noSign (h : IsDigits digits) (rest : List Char) :
    Reads grammar .token Terminal.sign (digits ++ rest) [] (digits ++ rest) := by
  obtain ⟨c, tail, rfl, hdigits⟩ := h
  have hsign : ∀ c ∈ decimalDigits,
      (c == '+' || c == '-') = false := List.forall_iff_forall_mem.mp (by decide)
  exact (refuses_char (hsign c (mem_decimalDigits (hdigits c List.mem_cons_self))) _).opt

/-- Digits before a space are read as an integer. -/
theorem leads_integer (h : IsDigits digits) (rest : List Char) :
    Leads grammar Symbol.numeric (digits ++ ' ' :: rest) [.node (.terminal .integer) digits []]
      (wordsOf rest) := by
  have hdigits := reads_digits h (e := ' ') rfl rest
  have hsign := reads_noSign h (' ' :: rest)
  -- the other kinds of numbers are tried first, and miss a dot or an exponent
  have hdot : ∀ e : Phrase, Refuses grammar .token (.seq (.one '.') e) (' ' :: rest) :=
    fun e => (refuses_one (by decide) rest).seq
  obtain ⟨c, tail, rfl, hall⟩ := id h
  have hne : c ≠ '.' := by
    rintro rfl
    exact absurd (hall '.' List.mem_cons_self) (by decide)
  have hexponent : Refuses grammar .token Terminal.exponent (' ' :: rest) :=
    (refuses_word rfl).seq
  have hdouble : Refuses grammar .words (.rule (.terminal .double)) (c :: tail ++ ' ' :: rest) := by
    apply refuses_terminal hasTokens .double
    refine hsign.seq_refuses ((hdigits.seq_refuses (hdot _)).choice ?_)
    exact (refuses_one hne _).seq.choice (hdigits.seq_refuses hexponent)
  have hstar : Reads grammar .token (.star (.char isAsciiDigit)) (c :: tail ++ ' ' :: rest) []
      (' ' :: rest) := reads_run hall rfl rest
  have hdecimal : Refuses grammar .words (.rule (.terminal .decimal))
      (c :: tail ++ ' ' :: rest) := by
    apply refuses_terminal hasTokens .decimal
    exact hsign.seq_refuses (hstar.seq_refuses (hdot _))
  have hinteger : Reads grammar .words (.rule (.terminal .integer)) (c :: tail ++ ' ' :: rest)
      [.node (.terminal .integer) (c :: tail) []] (' ' :: rest) :=
    reads_terminal hasTokens .integer (by decide) (hsign.seq hdigits)
  exact Leads.choice_right hdouble
    (Leads.choice_right hdecimal (hinteger.leads (wordsOf_blank rfl rest)))

/-- The operands that are tried before a number. -/
def beforeNumbers : List Phrase :=
  [Symbol.parenthesized (.rule .expression), .rule (.exists true), .rule (.exists false),
    .rule .aggregate, .rule .builtinCall, .rule .iriOrCall, .rule .literal]

/-- A digit starts no operand but a number, and is no operator. -/
theorem digit_peek : ∀ c ∈ decimalDigits,
    isWordStart c = true ∧
    ∀ e ∈ Symbol.anyPrefix :: beforeNumbers, e.peek (grammar.peek (some c) 6) (some c) = .fails :=
  List.forall_iff_forall_mem.mp (by decide)

/-- Digits are no blanks, and no operator or term that is tried before numbers reads them. -/
theorem IsDigits.refuses (h : IsDigits digits) (rest : List Char) :
    wordsOf (digits ++ rest) = digits ++ rest ∧
    ∀ e ∈ Symbol.anyPrefix :: beforeNumbers, Refuses grammar .words e (digits ++ rest) := by
  obtain ⟨c, tail, rfl, hall⟩ := h
  obtain ⟨hword, hpeek⟩ := digit_peek c (mem_decimalDigits (hall c List.mem_cons_self))
  exact ⟨wordsOf_cons hword _, fun e he => refuses_of_head hword (hpeek e he) _⟩

/-- Digits before a space are read as an operand. -/
theorem leads_primary (h : IsDigits digits) (rest : List Char) :
    Leads grammar Symbol.primary (digits ++ ' ' :: rest) [.node (.terminal .integer) digits []]
      (wordsOf rest) := by
  have hbefore : ∀ e ∈ beforeNumbers, Refuses grammar .words e (digits ++ ' ' :: rest) :=
    fun e he => (h.refuses (' ' :: rest)).2 e (List.mem_cons_of_mem _ he)
  exact leads_choices _ hbefore (leads_integer h rest)

end Numbers

/-! ## Expressions -/

section Expressions

variable {prefixes : List (Outline Symbol)} {node : Outline Symbol}

/-- The node of an operand with the operators before it. -/
def operandOutline (prefixes : List (Outline Symbol)) (node : Outline Symbol) : Outline Symbol :=
  .node .expression [] (prefixes ++ [node])

/-- An operand with operators before it is an expression where no other operator follows. -/
theorem leads_operand (hprefixes : Leads grammar (.star Symbol.anyPrefix) cs prefixes mid)
    (hprimary : Leads grammar Symbol.primary mid [node] next)
    (hafter : Refuses grammar .words Symbol.anyPostfix next)
    (hoperator : Refuses grammar .words Symbol.anyInfix next) :
    Leads grammar (.rule .expression) cs [operandOutline prefixes node] next := by
  have hnext := wordsOf_of_leads hprimary
  have hmore : Leads grammar (.star (.seqs (Symbol.anyInfix :: Symbol.operand))) next [] next :=
    hoperator.seq.chain.star hnext
  have hbody := hprefixes.seq (hprimary.seq ((hafter.chain.star hnext).seq hmore))
  exact Leads.rule_words rfl hbody

/-- The operators before the digits of a number. -/
def signPrefixes : Bool → List (Outline Symbol)
  | false => []
  | true => [.node (.prefixOp .minus) [] []]

/-- The text of a number. -/
def signedText (isNegative : Bool) (digits : List Char) : List Char :=
  if isNegative then '-' :: digits else digits

/-- A sign is read as an operator before the digits. -/
theorem leads_sign {digits : List Char} (isNegative : Bool) (h : IsDigits digits)
    (rest : List Char) :
    Leads grammar (.star Symbol.anyPrefix) (signedText isNegative digits ++ rest)
      (signPrefixes isNegative) (digits ++ rest) := by
  obtain ⟨hwords, hrefuses⟩ := h.refuses rest
  have hstop : Chain grammar Symbol.anyPrefix (digits ++ rest) [] (digits ++ rest) :=
    (hrefuses _ List.mem_cons_self).chain
  cases isNegative with
  | false => exact hstop.star hwords
  | true =>
    have hminus : Leads grammar (.rule (.prefixOp .minus)) ('-' :: (digits ++ rest))
        [.node (.prefixOp .minus) [] []] (digits ++ rest) :=
      Leads.rule_words rfl ((reads_text ['-'] _).leads hwords)
    have hnot : Refuses grammar .words (.rule (.prefixOp .not)) ('-' :: (digits ++ rest)) :=
      refuses_of_head rfl rfl _
    have hsign : Leads grammar Symbol.anyPrefix ('-' :: (digits ++ rest))
        [.node (.prefixOp .minus) [] []] (digits ++ rest) :=
      Leads.choice_right hnot hminus.choice_left
    exact (hsign.chain hstop).star (wordsOf_cons rfl _)

/-- The node of a number inside an expression. -/
def numberOutline (isNegative : Bool) (digits : List Char) : Outline Symbol :=
  operandOutline (signPrefixes isNegative) (.node (.terminal .integer) digits [])

/-- A number is an expression before a word that is no operator. -/
theorem leads_number {digits : List Char} (isNegative : Bool) (h : IsDigits digits) {c : Char}
    (hword : isWordStart c = true)
    (hpeek : ∀ e ∈ [Symbol.anyPostfix, Symbol.anyInfix],
      e.peek (grammar.peek (some c) 6) (some c) = .fails) (rest : List Char) :
    Leads grammar (.rule .expression) (signedText isNegative digits ++ ' ' :: c :: rest)
      [numberOutline isNegative digits] (c :: rest) := by
  have hprimary := leads_primary h (c :: rest)
  rw [wordsOf_cons hword] at hprimary
  exact leads_operand (leads_sign isNegative h _) hprimary
    (refuses_of_head hword (hpeek _ (by simp)) rest)
    (refuses_of_head hword (hpeek _ (by simp)) rest)

/-- What is made of a number: the operator is applied to the number without its sign. -/
def signedExpr (isNegative : Bool) (digits : List Char) : Expr :=
  let number := Expr.const (.literal (.typed (String.ofList digits) Vocabulary.xsdInteger))
  if isNegative then .unary .minus number else number

/-- The node of a number with a sign or without is read as the expression of the number. -/
theorem readExpr_number {scope : IriScope} {tree : Node} {isNegative : Bool} {digits : List Char}
    (htree : grammar.outline tree = numberOutline isNegative digits) :
    readExpr scope tree = pure (signedExpr isNegative digits) := by
  obtain ⟨_, _, _, rfl, hparts, -⟩ := Grammar.eq_of_outline htree
  cases isNegative with
  | false =>
    obtain ⟨number, rfl, hnumber⟩ := Grammar.eq_singleton_of_outlines hparts
    obtain ⟨_, _, _, rfl, -, htext⟩ := Grammar.eq_of_outline hnumber
    obtain rfl := hasTokens.text_eq htext
    rfl
  | true =>
    obtain ⟨sign, _, rfl, hsign, hrest⟩ := Grammar.eq_cons_of_outlines hparts
    obtain ⟨_, _, _, rfl, -, -⟩ := Grammar.eq_of_outline hsign
    obtain ⟨number, rfl, hnumber⟩ := Grammar.eq_singleton_of_outlines hrest
    obtain ⟨_, _, _, rfl, -, htext⟩ := Grammar.eq_of_outline hnumber
    obtain rfl := hasTokens.text_eq htext
    rfl

end Expressions

/-! ## Assignments -/

section Assignments

variable {name : List Char} {value : Outline Symbol}

/-- The node of an assignment. -/
def bindOutline (value : Outline Symbol) (name : List Char) : Outline Symbol :=
  .node .bind [] [value, varOutline name]

/-- What starts no term starts no triple. -/
theorem refuses_triplesBlock (hvar : Refuses grammar .words (.rule .var) cs)
    (hterms : ∀ e ∈ [Symbol.iri, .rule .literal, Symbol.numeric, .rule .boolean,
      Terminal.blankNode Symbol.terminal, .rule .emptyList], Refuses grammar .words e cs)
    (hnode : Refuses grammar .words Symbol.triplesNode cs) :
    Refuses grammar .words (.rule .triplesBlock) cs := by
  have hsubject : Refuses grammar .words (.rule .sameSubject) cs :=
    Refuses.rule ((hvar.choice (refuses_choices hterms)).seq.choice hnode.seq)
  exact Refuses.rule hsubject.seq

/-- A letter that starts no term but an IRI or a boolean. -/
abbrev StartsKeyword (c : Char) : Prop :=
  isWordStart c = true ∧ isNameBase c = true ∧
  ∀ e ∈ [.rule .var, .rule .literal, Symbol.numeric, Terminal.blankNode Symbol.terminal,
      .rule .emptyList, Symbol.triplesNode],
    (e : Phrase).peek (grammar.peek (some c) 6) (some c) = .fails

/-- A keyword before a parenthesis starts no triple. -/
theorem refuses_triplesBlock_keyword {c : Char} {keyword : List Char} (hc : StartsKeyword c)
    (hkeyword : keyword.all isNameChar = true) {rest : List Char}
    (hboolean : Refuses grammar .words (.rule .boolean) (c :: keyword ++ '(' :: rest)) :
    Refuses grammar .words (.rule .triplesBlock) (c :: keyword ++ '(' :: rest) := by
  obtain ⟨hword, hbase, hpeek⟩ := hc
  -- a letter may start the prefix of a name, so an IRI is refused only at the parenthesis
  have hiri : Refuses grammar .words Symbol.iri (c :: keyword ++ '(' :: rest) :=
    refuses_iri_before hasTokens hbase (List.all_eq_true.mp hkeyword) (by decide) (by decide)
      (by decide) rest
  have hother : ∀ e ∈ [.rule .var, .rule .literal, Symbol.numeric,
      Terminal.blankNode Symbol.terminal, .rule .emptyList, Symbol.triplesNode],
      Refuses grammar .words e (c :: keyword ++ '(' :: rest) :=
    fun e he => refuses_of_head hword (hpeek e he) _
  refine refuses_triplesBlock (hother _ (by simp)) (fun e he => ?_) (hother _ (by simp))
  simp only [List.mem_cons, List.not_mem_nil, or_false] at he
  rcases he with rfl | rfl | rfl | rfl | rfl | rfl
  · exact hiri
  · exact hother _ (by simp)
  · exact hother _ (by simp)
  · exact hboolean
  · exact hother _ (by simp)
  · exact hother _ (by simp)

/-- An assignment is read as an element of a group. -/
theorem leads_bind (hname : IsVariableName name)
    (h : Leads grammar (.rule .expression) (wordsOf cs) [value]
      ('A' :: 'S' :: ' ' :: '?' :: (name ++ ')' :: rest))) :
    Leads grammar Symbol.patternNotTriples ('B' :: 'I' :: 'N' :: 'D' :: '(' :: cs)
      [bindOutline value name] (wordsOf rest) := by
  have hbind : Reads grammar .words (.keyword "BIND") (['B', 'I', 'N', 'D'] ++ '(' :: cs) []
      ('(' :: cs) := reads_word (by decide) _
  have hopen : Leads grammar (.one '(') ('(' :: cs) [] (wordsOf cs) := (reads_one '(' cs).leads rfl
  have has : Reads grammar .words (.keyword "AS")
      (['A', 'S'] ++ ' ' :: '?' :: (name ++ ')' :: rest)) []
      (' ' :: '?' :: (name ++ ')' :: rest)) := reads_word (by decide) _
  have hvar : Leads grammar (.rule .var) ('?' :: (name ++ ')' :: rest)) [varOutline name]
      (')' :: rest) := (reads_var hname rfl rest).leads (wordsOf_cons rfl rest)
  have hclose : Leads grammar (.one ')') (')' :: rest) [] (wordsOf rest) :=
    (reads_one ')' rest).leads rfl
  have hbody := (hbind.leads (wordsOf_cons rfl cs)).seq (hopen.seq (h.seq ((has.leads
    ((wordsOf_blank rfl _).trans (wordsOf_cons rfl _))).seq (hvar.seq hclose))))
  have helements : ∀ e ∈ [.rule .unionPattern, .rule .optionalPattern, .rule .minusPattern,
      .rule .graphPattern, .rule .servicePattern, .rule .filter],
      (e : Phrase).peek (grammar.peek (some 'B') 6) (some 'B') = .fails := by decide
  exact leads_choices _ (fun e he => refuses_of_head rfl (helements e he) _)
    (Leads.rule_words (r := Symbol.bind) rfl hbody)

/-- One element is read as the content of a group. -/
theorem leads_element {node : Outline Symbol} (hcs : wordsOf cs = cs)
    (htriples : Refuses grammar .words (.rule .triplesBlock) cs)
    (h : Leads grammar Symbol.patternNotTriples cs [node] ['\x7d']) :
    Leads grammar (.rule .groupContent) cs [.node .groupContent [] [node]] ['\x7d'] := by
  have hdot : Leads grammar (.opt (.one '.')) ['\x7d'] [] ['\x7d'] :=
    (refuses_one (by decide) []).leads_opt rfl
  have hmore : Leads grammar (.opt (.rule .triplesBlock)) ['\x7d'] [] ['\x7d'] :=
    (refuses_of_head rfl rfl []).leads_opt rfl
  have hstop : Chain grammar (.seqs [Symbol.patternNotTriples, .opt (.one '.'),
      .opt (.rule .triplesBlock)]) ['\x7d'] [] ['\x7d'] := (refuses_of_head rfl rfl []).chain
  have hchain := (h.seq (hdot.seq hmore)).chain hstop
  exact Leads.rule_words rfl ((htriples.leads_opt hcs).seq (hchain.star hcs))

end Assignments

/-! ## Tables of one column -/

section Tables

variable {name : List Char} {content : List (Outline Symbol)}
  {outcome : Except Failure (List Element)}

/-- The node of a form that asks for a table of one variable. -/
def selectOutline (name : List Char) (content : List (Outline Symbol)) : Outline Symbol :=
  .node .selectQuery [] [.node .selectClause [] [.node .selectItem [] [varOutline name]],
    .node .whereClause [] [groupOutline content], .node .modifiers [] []]

/-- The clause that asks for a table of one variable. -/
theorem leads_selectClause (hname : IsVariableName name) {c : Char} (hword : isWordStart c = true)
    (hpeek : (.rule .selectItem : Phrase).peek (grammar.peek (some c) 6) (some c) = .fails)
    (rest : List Char) :
    Leads grammar (.rule .selectClause)
      ('S' :: 'E' :: 'L' :: 'E' :: 'C' :: 'T' :: ' ' :: '?' :: (name ++ ' ' :: c :: rest))
      [.node .selectClause [] [.node .selectItem [] [varOutline name]]] (c :: rest) := by
  have hselect : Reads grammar .words (.keyword "SELECT")
      (['S', 'E', 'L', 'E', 'C', 'T'] ++ ' ' :: '?' :: (name ++ ' ' :: c :: rest)) []
      (' ' :: '?' :: (name ++ ' ' :: c :: rest)) := reads_word (by decide) _
  have hkeyword := hselect.leads ((wordsOf_blank rfl _).trans (wordsOf_cons rfl _))
  have hduplicates : Leads grammar (.opt (.rule .duplicates)) ('?' :: (name ++ ' ' :: c :: rest)) []
      ('?' :: (name ++ ' ' :: c :: rest)) :=
    (refuses_of_head rfl rfl _).leads_opt (wordsOf_cons rfl _)
  have hall : Refuses grammar .words (.rule .allColumns) ('?' :: (name ++ ' ' :: c :: rest)) :=
    refuses_of_head rfl rfl _
  have hvar : Leads grammar (.rule .var) ('?' :: (name ++ ' ' :: c :: rest)) [varOutline name]
      (c :: rest) :=
    (reads_var hname rfl _).leads ((wordsOf_blank rfl _).trans (wordsOf_cons hword rest))
  have hitem := Leads.rule_words (r := Symbol.selectItem) rfl hvar.choice_left
  have hstop : Chain grammar (.rule .selectItem) (c :: rest) [] (c :: rest) :=
    (refuses_of_head hword hpeek rest).chain
  have hitems := hitem.seq (hstop.star (wordsOf_cons hword rest))
  exact Leads.rule_words rfl (hkeyword.seq (hduplicates.seq (Leads.choice_right hall hitems)))

/-- A form that asks for a table is read if the content of the group is read up to the brace that
ends the text. -/
theorem leads_select (hname : IsVariableName name)
    (hsubquery : Refuses grammar .words (.rule .selectClause) (wordsOf cs))
    (h : Leads grammar (.rule .groupContent) (wordsOf cs) [.node .groupContent [] content]
      ['\x7d']) :
    Leads grammar forms ('S' :: 'E' :: 'L' :: 'E' :: 'C' :: 'T' :: ' ' :: '?' ::
      (name ++ ' ' :: 'W' :: 'H' :: 'E' :: 'R' :: 'E' :: ' ' :: '\x7b' :: cs))
      [selectOutline name content] [] := by
  have hclause := leads_selectClause hname (c := 'W') rfl rfl
    ('H' :: 'E' :: 'R' :: 'E' :: ' ' :: '\x7b' :: cs)
  have hdatasets : Chain grammar (.rule .dataset)
      ('W' :: 'H' :: 'E' :: 'R' :: 'E' :: ' ' :: '\x7b' :: cs) []
      ('W' :: 'H' :: 'E' :: 'R' :: 'E' :: ' ' :: '\x7b' :: cs) :=
    (refuses_of_head rfl rfl _).chain
  have hword : Reads grammar .words (.keyword "WHERE")
      (['W', 'H', 'E', 'R', 'E'] ++ ' ' :: '\x7b' :: cs) [] (' ' :: '\x7b' :: cs) :=
    reads_word (by decide) _
  have hkeyword := (hword.leads ((wordsOf_blank rfl _).trans (wordsOf_cons rfl cs))).opt
  have hwhere := Leads.rule_words (r := Symbol.whereClause) rfl
    (hkeyword.seq (leads_group hsubquery h))
  have hselect := Leads.rule_words (r := Symbol.selectQuery) rfl
    (hclause.seq ((hdatasets.star (wordsOf_cons rfl _)).seq (hwhere.seq leads_noModifiers)))
  exact hselect.choice_left

/-- The query for a table of one variable. -/
def selecting (name : String) (elements : List Element) : Query :=
  ⟨.select .keep (.items [.var name]), .mk elements, .none, none⟩

/-- The walk makes of a clause with a variable in scope a table of that variable. -/
theorem readSelect_eq {scope : IriScope} {inScope : List String} {tree : Node}
    (htree : grammar.outline tree = .node .selectItem [] [varOutline name])
    (hname : String.ofList name ∈ inScope) :
    readSelect scope inScope [tree] =
      pure (.select .keep (.items [.var (String.ofList name)])) := by
  obtain ⟨start, text, _, rfl, hvars, -⟩ := Grammar.eq_of_outline htree
  obtain ⟨var, rfl, hvar⟩ := Grammar.eq_singleton_of_outlines hvars
  obtain ⟨index, written, inner, rfl, -, htext⟩ := Grammar.eq_of_outline hvar
  rw [Grammar.outlineText, if_neg (by decide)] at htext
  subst htext
  have hcontains : inScope.contains (String.ofList name) = true := List.contains_iff_mem.mpr hname
  have hitems : readItems scope inScope
      [.node .selectItem start text [.node .var index ('?' :: name) inner]] =
      pure [.var (String.ofList name)] := by
    rw [readItems]
    show (if inScope.contains (String.ofList name) then _ else _) = _
    rw [if_pos hcontains]
    rfl
  show readItems scope inScope
    [.node .selectItem start text [.node .var index ('?' :: name) inner]] >>= _ = _
  rw [hitems]
  rfl

/-- The walk makes of a form that asks for a table what it makes of the content of the group, if
the variable is in scope. -/
theorem readForm_select {scope : IriScope} {tree : Node} {elements : List Element}
    (htree : grammar.outline tree = selectOutline name content)
    (hread : ∀ parts, grammar.outlines parts = content →
      readElements scope [] parts = pure elements)
    (hscope : String.ofList name ∈ addElementVars [] elements) :
    readForm scope none tree = pure (selecting (String.ofList name) elements) := by
  obtain ⟨_, _, _, rfl, hclauses, -⟩ := Grammar.eq_of_outline htree
  obtain ⟨clause, _, rfl, hclause, hmore⟩ := Grammar.eq_cons_of_outlines hclauses
  obtain ⟨_, _, _, rfl, hitems, -⟩ := Grammar.eq_of_outline hclause
  obtain ⟨item, rfl, hitem⟩ := Grammar.eq_singleton_of_outlines hitems
  obtain ⟨whereClause, _, rfl, hwhere, hlast⟩ := Grammar.eq_cons_of_outlines hmore
  obtain ⟨_, _, _, rfl, hgroups, -⟩ := Grammar.eq_of_outline hwhere
  obtain ⟨group, rfl, hgroup⟩ := Grammar.eq_singleton_of_outlines hgroups
  obtain ⟨modifiers, rfl, hmodifiers⟩ := Grammar.eq_singleton_of_outlines hlast
  obtain ⟨_, _, _, rfl, hnone, -⟩ := Grammar.eq_of_outline hmodifiers
  obtain rfl := Grammar.eq_nil_of_outlines hnone
  have hpattern : readFirstGroup scope [group] =
      ExceptT.mk (pure ((Except.ok elements).map Group.mk)) := readGroup_eq hgroup hread
  have hselect : readSelect scope (addElementVars [] elements ++ []) [item] =
      pure (.select .keep (.items [.var (String.ofList name)])) :=
    readSelect_eq hitem (List.mem_append_left _ hscope)
  simp only [readForm, ParseTree.rule, ParseTree.children, List.foldlM_cons, List.foldlM_nil,
    readPart, hpattern]
  show (readSelect scope (addElementVars [] elements ++ []) [item] >>= fun form =>
    return (⟨form, .mk elements, .none, none⟩ : Query)) = _
  rw [hselect]
  rfl

end Tables

/-! ## Values of texts -/

section Values

variable {name : List Char} {value : Outline Symbol} {e : Expr}

/-- The walk makes of an assignment what it makes of its expression. -/
theorem readElements_bind {scope : IriScope} {parts : List Node}
    (hparts : grammar.outlines parts = [bindOutline value name])
    (hvalue : ∀ tree, grammar.outline tree = value → readExpr scope tree = pure e) :
    readElements scope [] parts = pure [.bind e (String.ofList name)] := by
  obtain ⟨part, rfl, hpart⟩ := Grammar.eq_singleton_of_outlines hparts
  obtain ⟨_, _, _, rfl, hchildren, -⟩ := Grammar.eq_of_outline hpart
  obtain ⟨tree, _, rfl, htree, hrest⟩ := Grammar.eq_cons_of_outlines hchildren
  obtain ⟨var, rfl, hvar⟩ := Grammar.eq_singleton_of_outlines hrest
  obtain ⟨_, _, _, rfl, -, htext⟩ := Grammar.eq_of_outline hvar
  rw [Grammar.outlineText, if_neg (by decide)] at htext
  subst htext
  simp only [readElements, readElement, hvalue tree htree]
  rfl

/-- A query for the value of an expression is read as one assignment to its column. -/
theorem read_assigned {text : String} (hname : IsVariableName name) (hcs : wordsOf cs = cs)
    (htext : text.toList = 'S' :: 'E' :: 'L' :: 'E' :: 'C' :: 'T' :: ' ' :: '?' ::
      (name ++ ' ' :: 'W' :: 'H' :: 'E' :: 'R' :: 'E' :: ' ' :: '\x7b' :: ' ' ::
        'B' :: 'I' :: 'N' :: 'D' :: '(' :: cs))
    (h : Leads grammar (.rule .expression) cs [value]
      ('A' :: 'S' :: ' ' :: '?' :: (name ++ [')', ' ', '\x7d'])))
    (hvalue : ∀ tree, grammar.outline tree = value →
      readExpr (IriScope.ofBase none) tree = pure e) :
    read text =
      .ok (selecting (String.ofList name) [.bind e (String.ofList name)]) := by
  have hwords : wordsOf (' ' :: 'B' :: 'I' :: 'N' :: 'D' :: '(' :: cs) =
      'B' :: 'I' :: 'N' :: 'D' :: '(' :: cs := (wordsOf_blank rfl _).trans (wordsOf_cons rfl _)
  rw [← hcs] at h
  have hbind : Leads grammar Symbol.patternNotTriples ('B' :: 'I' :: 'N' :: 'D' :: '(' :: cs)
      [bindOutline value name] (wordsOf [' ', '\x7d']) := leads_bind hname h
  have hstart : StartsKeyword 'B' := by decide
  have htriples : Refuses grammar .words (.rule .triplesBlock)
      ('B' :: 'I' :: 'N' :: 'D' :: '(' :: cs) :=
    @refuses_triplesBlock_keyword 'B' ['I', 'N', 'D'] hstart rfl cs (refuses_of_head rfl rfl _)
  have hcontent := leads_element (wordsOf_cons rfl _) htriples hbind
  have hsubquery : Refuses grammar .words (.rule .selectClause)
      ('B' :: 'I' :: 'N' :: 'D' :: '(' :: cs) := refuses_of_head rfl rfl _
  rw [← hwords] at hcontent hsubquery
  have hscope : String.ofList name ∈ addElementVars [] [.bind e (String.ofList name)] := by
    simp [addElementVars, Element.addVars, insertName]
  have hread : ∀ tree, grammar.outline tree = selectOutline name [bindOutline value name] →
      readForm (IriScope.ofBase none) none tree = ExceptT.mk (pure (Except.ok
        (selecting (String.ofList name) [.bind e (String.ofList name)]))) :=
    fun tree htree =>
      readForm_select htree (fun parts hparts => readElements_bind hparts hvalue) hscope
  refine read_form htext rfl (refuses_of_head rfl rfl _) (leads_select hname hsubquery hcontent)
    (by decide) hread ?_
  intro q hq
  cases hq
  rfl

/-- The query for the value of an expression in a text. -/
def valueQuery (text : String) : String := "SELECT ?r WHERE \x7b BIND(" ++ text ++ " AS ?r) \x7d"

/-- A number in an expression is read without its sign, which is an operator before it. -/
theorem read_valueQuery_number {text : String} {isNegative : Bool} {digits : List Char}
    (h : IsDigits digits) (htext : text.toList = signedText isNegative digits) :
    read (valueQuery text) = .ok (selecting "r" [.bind (signedExpr isNegative digits) "r"]) := by
  have hname : IsVariableName ['r'] :=
    ⟨'r', [], rfl, rfl, fun _ hd => absurd hd List.not_mem_nil⟩
  have hnumber := leads_number isNegative h (c := 'A') rfl (by decide)
    ['S', ' ', '?', 'r', ')', ' ', '\x7d']
  have hstart : wordsOf (signedText isNegative digits ++
      [' ', 'A', 'S', ' ', '?', 'r', ')', ' ', '\x7d']) =
      signedText isNegative digits ++ [' ', 'A', 'S', ' ', '?', 'r', ')', ' ', '\x7d'] := by
    cases isNegative with
    | false => exact (h.refuses _).1
    | true => exact wordsOf_cons rfl _
  have hchars : (valueQuery text).toList = 'S' :: 'E' :: 'L' :: 'E' :: 'C' :: 'T' :: ' ' :: '?' ::
      (['r'] ++ ' ' :: 'W' :: 'H' :: 'E' :: 'R' :: 'E' :: ' ' :: '\x7b' :: ' ' ::
        'B' :: 'I' :: 'N' :: 'D' :: '(' :: (signedText isNegative digits ++
          [' ', 'A', 'S', ' ', '?', 'r', ')', ' ', '\x7d'])) := by
    unfold valueQuery
    rw [String.toList_append, String.toList_append, htext]
    rfl
  exact read_assigned hname hstart hchars hnumber fun tree htree => readExpr_number htree

end Values

end RdfStore.Query
