import Mathlib.Data.List.Forall2
import RdfStore.Proofs.Peg.Prolong
import RdfStore.Proofs.Query.ExpressionText
import RdfStore.Proofs.Query.Precedence

/-!
# Texts of operators

Variables with operators before them, and operators with spaces around between them, are read word
by word: no operator is taken for the beginning of a longer one, and a sign is an operator before or
between operands by the place where it stands. What is made of the words is the one tree that they
are combined to.
-/

set_option autoImplicit false

namespace RdfStore.Query

open RdfStore.Peg RdfStore.Syntax RdfStore.Text
open RdfStore.Turtle (wordsOf wordsOf_cons wordsOf_blank wordsOf_wordsOf isWordStart)

/-! ## Written sequences -/

/-- A variable with operators before it, each with a space after it or none. -/
structure WrittenOperand where
  prefixes : List (UnaryOp × Bool)
  mark : Char
  name : List Char
  isMark : (mark == '?' || mark == '$') = true
  isName : IsVariableName name

/-- An operator before an operand, and the space after it. -/
def prefixChars (p : UnaryOp × Bool) : List Char :=
  (Symbol.prefixText p.1).toList ++ if p.2 then [' '] else []

namespace WrittenOperand

/-- The text of an operand. -/
def text (o : WrittenOperand) : List Char := o.prefixes.flatMap prefixChars ++ o.mark :: o.name

/-- What is written. -/
def operand (o : WrittenOperand) : Prefixed := ⟨o.prefixes.map Prod.fst, String.ofList o.name⟩

/-- The nodes of an operand. -/
def outlines (o : WrittenOperand) : List (Outline Symbol) :=
  o.prefixes.map (fun p => .node (.prefixOp p.1) [] []) ++ [.node .var (o.mark :: o.name) []]

end WrittenOperand

/-- Operands after a first one, with the operators between them. -/
abbrev MoreOperands := List (BinaryOp × WrittenOperand)

/-- The text of operands after a first one: every operator has a space on both sides. -/
def moreText (more : MoreOperands) : List Char :=
  more.flatMap fun item => ' ' :: ((Symbol.infixText item.1).toList ++ ' ' :: item.2.text)

/-- The nodes of operands after a first one. -/
def moreOutlines (more : MoreOperands) : List (Outline Symbol) :=
  more.flatMap fun item => .node (.infixOp item.1) [] [] :: item.2.outlines

/-- The words of a sequence. -/
def writtenLexemes (first : WrittenOperand) (more : MoreOperands) : List Lexeme :=
  first.operand.lexemes ++ moreLexemes (more.map fun item => (item.1, item.2.operand))

/-- The query for whether the condition in a text holds. -/
def filterQuery (text : String) : String := "ASK \x7b FILTER(" ++ text ++ ") \x7d"

/-! ## Operators -/

variable {cs next rest : List Char}

/-- An operator before an operand is read, with the blanks after it. -/
theorem leads_prefix (op : UnaryOp) (rest : List Char) :
    Leads grammar Symbol.anyPrefix ((Symbol.prefixText op).toList ++ rest)
      [.node (.prefixOp op) [] []] (wordsOf rest) := by
  have hop : Leads grammar (.rule (.prefixOp op)) ((Symbol.prefixText op).toList ++ rest)
      [.node (.prefixOp op) [] []] (wordsOf rest) :=
    Leads.rule_words rfl ((reads_text _ rest).leads rfl)
  cases op with
  | not => exact hop.choice_left
  | minus => exact Leads.choice_right (refuses_of_head rfl rfl rest) hop.choice_left
  | plus =>
    exact Leads.choice_right (refuses_of_head rfl rfl rest)
      (Leads.choice_right (refuses_of_head rfl rfl rest) hop)

/-- All operators between two operands are tried. -/
theorem mem_infixOps (op : BinaryOp) : op ∈ Symbol.infixOps := by
  rcases op with _ | _ | c | c
  · decide
  · decide
  · cases c <;> decide
  · cases c <;> decide

/-- No operator is written with a space, and none that is tried before another one between operands
begins its text. -/
theorem infixOps_apart : ∀ op ∈ Symbol.infixOps, ∃ before after,
    Symbol.infixOps = before ++ op :: after ∧ ∀ other ∈ before,
      ' ' ∉ (Symbol.infixText other).toList ∧
        stripText? false (Symbol.infixText other).toList (Symbol.infixText op).toList = none := by
  have hsplit : ∀ op ∈ Symbol.infixOps, Symbol.infixOps =
      Symbol.infixOps.takeWhile (· != op) ++ op :: (Symbol.infixOps.dropWhile (· != op)).tail ∧
      ∀ other ∈ Symbol.infixOps.takeWhile (· != op), ' ' ∉ (Symbol.infixText other).toList ∧
        stripText? false (Symbol.infixText other).toList (Symbol.infixText op).toList = none := by
    decide
  exact fun op hop => ⟨_, _, hsplit op hop⟩

/-- An operator between operands is read before a space. -/
theorem leads_infix (op : BinaryOp) (rest : List Char) :
    Leads grammar Symbol.anyInfix ((Symbol.infixText op).toList ++ ' ' :: rest)
      [.node (.infixOp op) [] []] (wordsOf rest) := by
  obtain ⟨before, after, hops, hbefore⟩ := infixOps_apart op (mem_infixOps op)
  have hop : Leads grammar (.rule (.infixOp op)) ((Symbol.infixText op).toList ++ ' ' :: rest)
      [.node (.infixOp op) [] []] (wordsOf rest) :=
    Leads.rule_words rfl ((reads_text _ _).leads (wordsOf_blank rfl rest))
  unfold Symbol.anyInfix
  rw [hops, List.map_append, List.map_cons]
  refine leads_choices _ (fun e he => ?_) hop
  obtain ⟨other, hother, rfl⟩ := List.mem_map.mp he
  obtain ⟨hspace, hnone⟩ := hbefore other hother
  have hchars : ∀ p ∈ (Symbol.infixText other).toList,
      p ≠ ' ' ∧ (false = true → asciiLower p ≠ asciiLower ' ') :=
    fun p hp => ⟨fun heq => hspace (heq ▸ hp), fun h => (nomatch h)⟩
  refine Refuses.rule (refuses_text ?_)
  rw [stripText?_prolong hchars, hnone]
  rfl

/-! ## Operands -/

/-- A variable starts with no other operand, and is no operator. -/
theorem mark_peek : ∀ c ∈ ['?', '$'], isWordStart c = true ∧
    ∀ e ∈ Symbol.anyPrefix :: (beforeNumbers ++ [Symbol.numeric, .rule .boolean]),
      e.peek (grammar.peek (some c) 6) (some c) = .fails :=
  List.forall_iff_forall_mem.mp (by decide)

namespace WrittenOperand

variable (o : WrittenOperand)

/-- An operand is marked by a question mark or a dollar sign. -/
theorem mark_mem : o.mark ∈ ['?', '$'] := by
  simpa using o.isMark

/-- A text of operators and a variable starts with a word. -/
theorem wordsOf_prefixes (prefixes : List (UnaryOp × Bool)) (rest : List Char) :
    wordsOf (prefixes.flatMap prefixChars ++ o.mark :: rest) =
      prefixes.flatMap prefixChars ++ o.mark :: rest := by
  cases prefixes with
  | nil => exact wordsOf_cons (mark_peek o.mark o.mark_mem).1 rest
  | cons p more =>
    obtain ⟨c, tail, hword, htext⟩ : ∃ c tail, isWordStart c = true ∧
        (Symbol.prefixText p.1).toList = c :: tail := by
      cases p.1
      exacts [⟨'!', [], rfl, rfl⟩, ⟨'+', [], rfl, rfl⟩, ⟨'-', [], rfl, rfl⟩]
    rw [List.flatMap_cons, prefixChars, htext, List.append_assoc, List.append_assoc,
      List.cons_append]
    exact wordsOf_cons hword _

/-- The text of an operand is its signs, its mark and its name. -/
theorem text_append (rest : List Char) :
    o.text ++ rest = o.prefixes.flatMap prefixChars ++ o.mark :: (o.name ++ rest) := by
  simp [text]

/-- An operand does not start with a blank. -/
theorem wordsOf_text (rest : List Char) : wordsOf (o.text ++ rest) = o.text ++ rest := by
  rw [o.text_append]
  exact o.wordsOf_prefixes o.prefixes _

/-- The operators before a variable are read one after the other. -/
theorem chain_prefixes (prefixes : List (UnaryOp × Bool)) (rest : List Char) :
    Chain grammar Symbol.anyPrefix (prefixes.flatMap prefixChars ++ o.mark :: rest)
      (prefixes.map fun p => .node (.prefixOp p.1) [] []) (o.mark :: rest) := by
  obtain ⟨hword, hpeek⟩ := mark_peek o.mark o.mark_mem
  induction prefixes with
  | nil => exact (refuses_of_head hword (hpeek _ List.mem_cons_self) rest).chain
  | cons p more ih =>
    have hspaces : wordsOf ((if p.2 then [' '] else []) ++
        (more.flatMap prefixChars ++ o.mark :: rest)) =
        more.flatMap prefixChars ++ o.mark :: rest := by
      split
      · exact (wordsOf_blank rfl _).trans (o.wordsOf_prefixes more rest)
      · exact o.wordsOf_prefixes more rest
    have hfirst := leads_prefix p.1 ((if p.2 then [' '] else []) ++
      (more.flatMap prefixChars ++ o.mark :: rest))
    rw [hspaces] at hfirst
    have htext : (p :: more).flatMap prefixChars ++ o.mark :: rest =
        (Symbol.prefixText p.1).toList ++ ((if p.2 then [' '] else []) ++
          (more.flatMap prefixChars ++ o.mark :: rest)) := by
      simp [prefixChars]
    rw [htext]
    exact hfirst.chain ih

/-- A variable is read as an operand, with the blanks after it. -/
theorem leads_primary {e : Char} (he : isVariableChar e = false) (rest : List Char) :
    Leads grammar Symbol.primary (o.mark :: (o.name ++ e :: rest))
      [.node .var (o.mark :: o.name) []] (wordsOf (e :: rest)) := by
  obtain ⟨hword, hpeek⟩ := mark_peek o.mark o.mark_mem
  have hvar := (reads_marked o.isMark o.isName he rest).leads rfl
  exact leads_choices [] (fun d hd => refuses_of_head hword
    (hpeek d (List.mem_cons_of_mem _ hd)) _) hvar

end WrittenOperand

/-! ## Expressions -/

/-- The characters that operators between operands start with. -/
def operatorStarts : List Char := ['|', '&', '=', '!', '<', '>', '+', '-', '*', '/']

/-- Such a character starts a word, and no membership. -/
theorem operator_peek : ∀ c ∈ operatorStarts, isWordStart c = true ∧
    Symbol.anyPostfix.peek (grammar.peek (some c) 6) (some c) = .fails :=
  List.forall_iff_forall_mem.mp (by decide)

/-- An operator between operands starts a word, and is no membership. -/
theorem infixText_head (op : BinaryOp) : ∃ c tail, (Symbol.infixText op).toList = c :: tail ∧
    isWordStart c = true ∧ Symbol.anyPostfix.peek (grammar.peek (some c) 6) (some c) = .fails := by
  have hall : ∀ op ∈ Symbol.infixOps,
      (Symbol.infixText op).toList.head?.any operatorStarts.contains = true := by decide
  have hstart := hall op (mem_infixOps op)
  cases htext : (Symbol.infixText op).toList with
  | nil => simp [htext] at hstart
  | cons c tail =>
    rw [htext] at hstart
    exact ⟨c, tail, rfl, operator_peek c (List.contains_iff_mem.mp hstart)⟩

/-- What may come after an operand of a sequence: an operator after a space, or the end. -/
theorem starts_moreText (more : MoreOperands) (rest : List Char) :
    (∃ e after, moreText more ++ ')' :: rest = e :: after ∧ isVariableChar e = false) ∧
      Refuses grammar .words Symbol.anyPostfix (wordsOf (moreText more ++ ')' :: rest)) := by
  cases more with
  | nil =>
    refine ⟨⟨')', rest, rfl, rfl⟩, ?_⟩
    show Refuses grammar .words Symbol.anyPostfix (wordsOf (')' :: rest))
    rw [wordsOf_cons rfl]
    exact refuses_of_head rfl rfl rest
  | cons item more =>
    refine ⟨⟨' ', _, rfl, rfl⟩, ?_⟩
    obtain ⟨c, tail, htext, hword, hpeek⟩ := infixText_head item.1
    rw [moreText, List.flatMap_cons, List.append_assoc, List.cons_append,
      wordsOf_blank rfl, htext]
    rw [List.append_assoc, List.cons_append, wordsOf_cons hword]
    exact refuses_of_head hword hpeek _

/-- An operand of a sequence is read up to the next word: the operators before it, the variable,
and no membership after it. -/
theorem leads_written (o : WrittenOperand) (more : MoreOperands) (rest : List Char) :
    ∃ mid, Leads grammar (.star Symbol.anyPrefix) (o.text ++ (moreText more ++ ')' :: rest))
        (o.prefixes.map fun p => .node (.prefixOp p.1) [] []) mid ∧
      Leads grammar Symbol.primary mid [.node .var (o.mark :: o.name) []]
        (wordsOf (moreText more ++ ')' :: rest)) ∧
      Leads grammar (.star Symbol.anyPostfix) (wordsOf (moreText more ++ ')' :: rest)) []
        (wordsOf (moreText more ++ ')' :: rest)) := by
  obtain ⟨⟨e, after, hafter, he⟩, hafterwards⟩ := starts_moreText more rest
  refine ⟨o.mark :: (o.name ++ (moreText more ++ ')' :: rest)), ?_, ?_,
    hafterwards.chain.star (wordsOf_wordsOf _)⟩
  · rw [o.text_append]
    exact (o.chain_prefixes o.prefixes _).star (o.wordsOf_prefixes o.prefixes _)
  · rw [hafter]
    exact o.leads_primary he after

/-- The operators and operands after a first one are read up to the closing parenthesis. -/
theorem chain_more (more : MoreOperands) (rest : List Char) :
    Chain grammar (.seqs (Symbol.anyInfix :: Symbol.operand))
      (wordsOf (moreText more ++ ')' :: rest)) (moreOutlines more) (')' :: rest) := by
  induction more with
  | nil =>
    have hend : wordsOf (moreText [] ++ ')' :: rest) = ')' :: rest := wordsOf_cons rfl rest
    rw [hend]
    exact (refuses_of_head rfl rfl rest).chain
  | cons item more ih =>
    obtain ⟨op, o⟩ := item
    obtain ⟨c, tail, hop, hword, -⟩ := infixText_head op
    have hchars : moreText ((op, o) :: more) ++ ')' :: rest =
        ' ' :: ((Symbol.infixText op).toList ++
          ' ' :: (o.text ++ (moreText more ++ ')' :: rest))) := by
      simp [moreText]
    have htext : wordsOf (moreText ((op, o) :: more) ++ ')' :: rest) =
        (Symbol.infixText op).toList ++ ' ' :: (o.text ++ (moreText more ++ ')' :: rest)) := by
      rw [hchars, wordsOf_blank rfl, hop]
      exact wordsOf_cons hword _
    have hoperator := leads_infix op (o.text ++ (moreText more ++ ')' :: rest))
    rw [o.wordsOf_text] at hoperator
    obtain ⟨mid, hprefixes, hprimary, hafterwards⟩ := leads_written o more rest
    have hnodes : moreOutlines ((op, o) :: more) = ([.node (.infixOp op) [] []] ++
        (o.prefixes.map (fun p => .node (.prefixOp p.1) [] []) ++
          ([.node .var (o.mark :: o.name) []] ++ []))) ++ moreOutlines more := by
      simp [moreOutlines, WrittenOperand.outlines]
    rw [htext, hnodes]
    exact (hoperator.seq (hprefixes.seq (hprimary.seq hafterwards))).chain ih

/-- The node of a sequence. -/
def sequenceOutline (first : WrittenOperand) (more : MoreOperands) : Outline Symbol :=
  .node .expression [] (first.outlines ++ moreOutlines more)

/-- A sequence is read as an expression up to the closing parenthesis. -/
theorem leads_sequence (first : WrittenOperand) (more : MoreOperands) (rest : List Char) :
    Leads grammar (.rule .expression) (first.text ++ (moreText more ++ ')' :: rest))
      [sequenceOutline first more] (')' :: rest) := by
  obtain ⟨mid, hprefixes, hprimary, hafterwards⟩ := leads_written first more rest
  have hmore := (chain_more more rest).star (wordsOf_wordsOf _)
  have hnodes : first.outlines ++ moreOutlines more =
      first.prefixes.map (fun p => .node (.prefixOp p.1) [] []) ++
        ([.node .var (first.mark :: first.name) []] ++ ([] ++ moreOutlines more)) := by
    simp [WrittenOperand.outlines]
  unfold sequenceOutline
  rw [hnodes]
  exact Leads.rule_words rfl (hprefixes.seq (hprimary.seq (hafterwards.seq hmore)))

/-! ## Reading them -/

/-- A node stands for a word among the parts of an expression. -/
def StandsFor (outline : Outline Symbol) (word : Lexeme) : Prop :=
  ∀ scope tree rest, grammar.outline tree = outline →
    readTokens scope (tree :: rest) = do return word.token :: (← readTokens scope rest)

/-- The node of an operator before an operand stands for this operator. -/
theorem standsFor_before (op : UnaryOp) : StandsFor (.node (.prefixOp op) [] []) (.before op) := by
  intro scope tree rest htree
  obtain ⟨_, _, _, rfl, -, -⟩ := Grammar.eq_of_outline htree
  conv_lhs => unfold readTokens
  rfl

/-- The node of an operator between two operands stands for this operator. -/
theorem standsFor_between (op : BinaryOp) : StandsFor (.node (.infixOp op) [] []) (.between op) := by
  intro scope tree rest htree
  obtain ⟨_, _, _, rfl, -, -⟩ := Grammar.eq_of_outline htree
  conv_lhs => unfold readTokens
  rfl

/-- The node of a variable stands for the variable. -/
theorem standsFor_var (mark : Char) (name : List Char) :
    StandsFor (.node .var (mark :: name) []) (.operand (String.ofList name)) := by
  intro scope tree rest htree
  obtain ⟨_, _, _, rfl, -, htext⟩ := Grammar.eq_of_outline htree
  rw [Grammar.outlineText, if_neg (by decide)] at htext
  subst htext
  conv_lhs => unfold readTokens
  rfl

/-- Nodes that stand for words are read as these words. -/
theorem readTokens_standing {scope : IriScope} {outlines : List (Outline Symbol)}
    {words : List Lexeme} (h : List.Forall₂ StandsFor outlines words) {trees : List Node}
    (htrees : grammar.outlines trees = outlines) :
    readTokens scope trees = pure (words.map Lexeme.token) := by
  induction h generalizing trees with
  | nil =>
    obtain rfl := Grammar.eq_nil_of_outlines htrees
    conv_lhs => unfold readTokens
    rfl
  | cons hword _ ih =>
    obtain ⟨tree, rest, rfl, htree, hrest⟩ := Grammar.eq_cons_of_outlines htrees
    rw [hword scope tree rest htree, ih hrest]
    rfl

/-- The words of an operand, and the nodes that stand for them. -/
theorem WrittenOperand.standing (o : WrittenOperand) :
    List.Forall₂ StandsFor o.outlines o.operand.lexemes := by
  have hprefixes : List.Forall₂ StandsFor
      (o.prefixes.map fun p => .node (.prefixOp p.1) [] []) (o.operand.prefixes.map .before) := by
    unfold operand
    induction o.prefixes with
    | nil => exact .nil
    | cons p rest ih => exact .cons (standsFor_before p.1) ih
  exact List.rel_append hprefixes (.cons (standsFor_var o.mark o.name) .nil)

/-- The nodes of further operands stand for their lexemes. -/
theorem standing_more (more : MoreOperands) : List.Forall₂ StandsFor (moreOutlines more)
    (moreLexemes (more.map fun item => (item.1, item.2.operand))) := by
  induction more with
  | nil => exact .nil
  | cons item rest ih =>
    exact List.rel_append (.cons (standsFor_between item.1) item.2.standing) ih

/-- What is made of the node of a sequence is a tree that gives its words back and is grouped as the
strength of its operators demands. -/
theorem readExpr_sequence {scope : IriScope} (first : WrittenOperand) (more : MoreOperands) :
    ∃ e, (∀ tree, grammar.outline tree = sequenceOutline first more →
        readExpr scope tree = pure e) ∧
      inOrder e = writtenLexemes first more ∧ IsGrouped e := by
  obtain ⟨e, hcombine, hwords, hgrouped⟩ := combine_grouped first.operand
    (more.map fun item => (item.1, item.2.operand))
  refine ⟨e, fun tree htree => ?_, hwords, hgrouped⟩
  obtain ⟨start, _, children, rfl, hchildren, -⟩ := Grammar.eq_of_outline htree
  have hstanding := List.rel_append first.standing (standing_more more)
  have htokens : readTokens scope children = pure ((writtenLexemes first more).map Lexeme.token) :=
    readTokens_standing hstanding hchildren
  unfold writtenLexemes at htokens
  rw [readExpr, htokens, pure_bind, hcombine]
  rfl

/-! ## Conditions -/

/-- The node of a condition. -/
def filterOutline (condition : Outline Symbol) : Outline Symbol := .node .filter [] [condition]

/-- A condition in parentheses is read as an element of a group. -/
theorem leads_filter {condition : Outline Symbol}
    (h : Leads grammar (.rule .expression) (wordsOf cs) [condition] (')' :: rest)) :
    Leads grammar Symbol.patternNotTriples
      ('F' :: 'I' :: 'L' :: 'T' :: 'E' :: 'R' :: '(' :: cs) [filterOutline condition]
      (wordsOf rest) := by
  have hfilter : Reads grammar .words (.keyword "FILTER")
      (['F', 'I', 'L', 'T', 'E', 'R'] ++ '(' :: cs) [] ('(' :: cs) := reads_word (by decide) _
  have hopen : Leads grammar (.one '(') ('(' :: cs) [] (wordsOf cs) := (reads_one '(' cs).leads rfl
  have hclose : Leads grammar (.one ')') (')' :: rest) [] (wordsOf rest) :=
    (reads_one ')' rest).leads rfl
  have hconstraint : Leads grammar Symbol.constraint ('(' :: cs) [condition] (wordsOf rest) :=
    (hopen.seq (h.seq hclose)).choice_left
  have helements : ∀ e ∈ [.rule .unionPattern, .rule .optionalPattern, .rule .minusPattern,
      .rule .graphPattern, .rule .servicePattern],
      (e : Phrase).peek (grammar.peek (some 'F') 6) (some 'F') = .fails := by decide
  exact leads_choices _ (fun e he => refuses_of_head rfl (helements e he) _)
    (Leads.rule_words (r := Symbol.filter) rfl
      ((hfilter.leads (wordsOf_cons rfl cs)).seq hconstraint))

/-- The walk makes of a condition what it makes of its expression. -/
theorem readElements_filter {scope : IriScope} {parts : List Node} {condition : Outline Symbol}
    {e : Expr} (hparts : grammar.outlines parts = [filterOutline condition])
    (hvalue : ∀ tree, grammar.outline tree = condition → readExpr scope tree = pure e) :
    readElements scope [] parts = pure [.filter e] := by
  obtain ⟨part, rfl, hpart⟩ := Grammar.eq_singleton_of_outlines hparts
  obtain ⟨_, _, _, rfl, hchildren, -⟩ := Grammar.eq_of_outline hpart
  obtain ⟨tree, rfl, htree⟩ := Grammar.eq_singleton_of_outlines hchildren
  simp only [readElements, readElement, hvalue tree htree]
  rfl

/-- Every condition of variables with operators before them, in any number, and operators with
single spaces around between them is accepted. Its tree read in order gives the same words; every
operator before a variable has only that variable below it; and at every operator between operands
the left side binds at least as tightly and the right side more tightly. -/
theorem read_operators (first : WrittenOperand) (more : MoreOperands) :
    ∃ e, read (filterQuery (String.ofList (first.text ++ moreText more))) =
        .ok (asking [.filter e]) ∧
      inOrder e = writtenLexemes first more ∧ IsGrouped e := by
  obtain ⟨e, hread, hwords, hgrouped⟩ := @readExpr_sequence (IriScope.ofBase none) first more
  refine ⟨e, ?_, hwords, hgrouped⟩
  let condition : List Char := first.text ++ (moreText more ++ [')', ' ', '\x7d'])
  have htext : (filterQuery (String.ofList (first.text ++ moreText more))).toList =
      'A' :: 'S' :: 'K' :: ' ' :: '\x7b' :: ' ' :: 'F' :: 'I' :: 'L' :: 'T' :: 'E' :: 'R' :: '(' ::
        condition := by
    unfold filterQuery
    rw [String.toList_append, String.toList_append, String.toList_ofList]
    simp [condition]
  have hwordsOf : wordsOf (' ' :: 'F' :: 'I' :: 'L' :: 'T' :: 'E' :: 'R' :: '(' :: condition) =
      'F' :: 'I' :: 'L' :: 'T' :: 'E' :: 'R' :: '(' :: condition :=
    (wordsOf_blank rfl _).trans (wordsOf_cons rfl _)
  have hcondition : wordsOf condition = condition := first.wordsOf_text _
  have hexpression := leads_sequence first more [' ', '\x7d']
  have hfilter : Leads grammar Symbol.patternNotTriples
      ('F' :: 'I' :: 'L' :: 'T' :: 'E' :: 'R' :: '(' :: condition)
      [filterOutline (sequenceOutline first more)] (wordsOf [' ', '\x7d']) :=
    leads_filter (hcondition.symm ▸ hexpression)
  have hstart : StartsKeyword 'F' := by decide
  have hboolean : Refuses grammar .words (.rule .boolean)
      ('F' :: 'I' :: 'L' :: 'T' :: 'E' :: 'R' :: '(' :: condition) :=
    Refuses.rule ((refuses_word rfl).choice (refuses_word rfl)).seq
  have htriples : Refuses grammar .words (.rule .triplesBlock)
      ('F' :: 'I' :: 'L' :: 'T' :: 'E' :: 'R' :: '(' :: condition) :=
    @refuses_triplesBlock_keyword 'F' ['I', 'L', 'T', 'E', 'R'] hstart rfl condition hboolean
  have hcontent := leads_element (wordsOf_cons rfl _) htriples hfilter
  have hsubquery : Refuses grammar .words (.rule .selectClause)
      ('F' :: 'I' :: 'L' :: 'T' :: 'E' :: 'R' :: '(' :: condition) := refuses_of_head rfl rfl _
  rw [← hwordsOf] at hcontent hsubquery
  have helements : ∀ parts, grammar.outlines parts = [filterOutline (sequenceOutline first more)] →
      readElements (IriScope.ofBase none) [] parts =
        ExceptT.mk (pure (Except.ok [Element.filter e])) :=
    fun parts hparts => readElements_filter hparts hread
  exact read_ask htext hsubquery hcontent helements

end RdfStore.Query
