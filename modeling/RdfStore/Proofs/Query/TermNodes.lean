import RdfStore.Proofs.Query.AskText
import RdfStore.Proofs.Syntax.SameTokens
import RdfStore.Proofs.Turtle.TermText
import RdfStore.Turtle.Reader

/-!
# Terms in queries

The tokens of queries are those of Turtle, so a text that is a term of Turtle is read as a term in
the place of an object of a query as well, and the two nodes denote the same term.
-/

set_option autoImplicit false

namespace RdfStore.Query

open RdfStore.Peg RdfStore.Syntax RdfStore.Text
open RdfStore.Turtle (wordsOf wordsFrom isWordStart)

/-! ## Shared tokens -/

/-- The rule of queries for a token of Turtle; other rules are not shared. -/
def tokenSymbol : Turtle.Symbol → Symbol
  | .terminal t => .terminal t
  | _ => .query

/-- The rules that the two grammars share. -/
def isToken : Turtle.Symbol → Bool
  | .terminal _ => true
  | _ => false

/-- The grammar of queries has the tokens of Turtle. -/
theorem renames_tokens : Renames Turtle.grammar grammar tokenSymbol isToken where
  blanks := rfl
  production r hr := by
    cases r with
    | terminal t => cases t <;> rfl
    | _ => cases hr
  isClosed r hr := by
    cases r with
    | terminal t => cases t <;> rfl
    | _ => cases hr

/-- No token of a document is made of words. -/
theorem manner_of_isToken (r : Turtle.Symbol) (hr : isToken r = true) :
    (Turtle.grammar.production r).manner ≠ .words := by
  cases r with
  | terminal t => exact manner_ne_words Turtle.Symbol.terminal t
  | _ => cases hr

/-- A token has the same terminal in documents and in queries. -/
theorem terminal?_tokenSymbol (r : Turtle.Symbol) :
    Symbol.terminal? (tokenSymbol r) = Turtle.Symbol.terminal? r := by
  cases r <;> rfl

/-! ## Objects -/

/-- A text is read as an object before a space, where a comment at its end goes on. -/
def IsNode (cs : List Char) (inComment : Bool) (node : Outline Symbol) : Prop :=
  ∀ more, Refuses Turtle.grammar .words Turtle.suffix (wordsFrom inComment more) →
    Leads grammar Symbol.graphNode (cs ++ ' ' :: more) [node] (wordsFrom inComment more)

section Objects

variable {cs : List Char} {object : Outline Turtle.Symbol} {nodes : List (Outline Turtle.Symbol)}

/-- An IRI between angle brackets is read as an object. -/
theorem isNode_iriRef
    (h : Runs Turtle.grammar .words (.once (.rule (.terminal .iriRef))) cs (some ([object], []))) :
    IsNode cs false (object.rename tokenSymbol) := by
  intro more _
  obtain ⟨tail, rfl⟩ := Turtle.iriRef_start h
  have hread :=
    (Turtle.prolongs_rule rfl _ _ more h).reads.leads (Turtle.wordsFrom_space false more)
  have hvar : Refuses grammar .words (.rule .var) ('<' :: tail ++ ' ' :: more) :=
    refuses_of_head rfl rfl _
  have hiri := hread.rename renames_tokens rfl
  exact (Leads.choice_right hvar hiri.choice_left.choice_left).choice_left

/-- A literal is read as an object. -/
theorem isNode_literal {inComment : Bool}
    (hstart : ∃ c tail, cs = c :: tail ∧ (c = '"' ∨ c = '\x27'))
    (h : ∀ more, Refuses Turtle.grammar .words Turtle.suffix (wordsFrom inComment more) →
      Leads Turtle.grammar (Terminal.literal .terminal) (cs ++ ' ' :: more) nodes
        (wordsFrom inComment more)) :
    IsNode cs inComment (.node .literal [] (Outline.renameAll tokenSymbol nodes)) := by
  intro more hmore
  have hliteral : Leads grammar (.rule .literal) (cs ++ ' ' :: more)
      [.node .literal [] (Outline.renameAll tokenSymbol nodes)] (wordsFrom inComment more) :=
    Leads.rule_words rfl ((h more hmore).rename renames_tokens rfl)
  obtain ⟨c, tail, rfl, hc⟩ := hstart
  have hrefuses : ∀ e ∈ [.rule .var, Symbol.iri],
      Refuses grammar .words e (c :: tail ++ ' ' :: more) := by
    intro e he
    have hpeek : ∀ c ∈ ['"', '\x27'], ∀ e ∈ [.rule .var, Symbol.iri],
        e.peek (grammar.peek (some c) 6) (some c) = .fails :=
      List.forall_iff_forall_mem.mp (by decide)
    refine refuses_of_head ?_ (hpeek c (by simpa using hc) e he) _
    rcases hc with rfl | rfl <;> rfl
  exact (Leads.choice_right (hrefuses _ (by simp)) (Leads.choice_right (hrefuses _ (by simp))
    hliteral.choice_left)).choice_left

/-- What starts like a number is no variable, IRI or literal. -/
theorem numberStarts_peek : ∀ c ∈ Turtle.numberStarts,
    ∀ e ∈ [.rule .var, Symbol.iri, .rule .literal],
      e.peek (grammar.peek (some c) 6) (some c) = .fails :=
  List.forall_iff_forall_mem.mp (by decide)

/-- A number is read as an object. -/
theorem isNode_numeric
    (h : Runs Turtle.grammar .words (.once (Terminal.numeric .terminal)) cs (some ([object], []))) :
    IsNode cs false (object.rename tokenSymbol) := by
  intro more _
  have hread := (Turtle.prolongs_numeric _ _ more h).reads.leads (Turtle.wordsFrom_space false more)
  have hnumber : Leads grammar Symbol.numeric (cs ++ ' ' :: more) [object.rename tokenSymbol]
      (wordsFrom false more) := hread.rename renames_tokens rfl
  obtain ⟨c, tail, rfl, hc⟩ := Turtle.numeric_start h
  have hrefuses : ∀ e ∈ [.rule .var, Symbol.iri, .rule .literal],
      Refuses grammar .words e (c :: tail ++ ' ' :: more) :=
    fun e he => refuses_of_head (Turtle.numberStarts_peek c hc).1 (numberStarts_peek c hc e he) _
  exact (Leads.choice_right (hrefuses _ (by simp)) (Leads.choice_right (hrefuses _ (by simp))
    (Leads.choice_right (hrefuses _ (by simp)) hnumber.choice_left))).choice_left

/-- A truth value is read before a space. -/
theorem reads_boolean (h : cs = ['t', 'r', 'u', 'e'] ∨ cs = ['f', 'a', 'l', 's', 'e'])
    (more : List Char) :
    Reads grammar .words (.rule .boolean) (cs ++ ' ' :: more) [.node .boolean cs []]
      (' ' :: more) := by
  have hend : Reads grammar .token Symbol.wordEnd (' ' :: more) [] (' ' :: more) :=
    (refuses_char rfl more).notAhead
  have hword : Reads grammar .token (Symbol.keywords ["true", "false"]) (cs ++ ' ' :: more) []
      (' ' :: more) := by
    rcases h with rfl | rfl
    · exact (reads_word (by decide) _).choice_left
    · exact Reads.choice_right (refuses_word rfl) (reads_word (by decide) _)
  have hbody : Reads grammar .token (grammar.production .boolean).body (cs ++ ' ' :: more) []
      (' ' :: more) := hword.seq hend
  exact Reads.rule_text (by decide) rfl hbody

/-- A truth value is read as an object. -/
theorem isNode_boolean (h : cs = ['t', 'r', 'u', 'e'] ∨ cs = ['f', 'a', 'l', 's', 'e']) :
    IsNode cs false (.node .boolean cs []) := by
  intro more _
  have hread := (reads_boolean h more).leads (Turtle.wordsFrom_space false more)
  have hstart : ∃ c tail, cs = c :: tail ∧ isNameBase c = true ∧ (∀ d ∈ tail, isNameChar d = true) ∧
      isWordStart c = true ∧ ∀ e ∈ [.rule .var, .rule .literal, Symbol.numeric],
        e.peek (grammar.peek (some c) 6) (some c) = .fails := by
    rcases h with rfl | rfl
    · exact ⟨'t', _, rfl, rfl, List.all_eq_true.mp rfl, rfl, by decide⟩
    · exact ⟨'f', _, rfl, rfl, List.all_eq_true.mp rfl, rfl, by decide⟩
  obtain ⟨c, tail, rfl, hbase, hname, hword, hpeek⟩ := hstart
  have hiri : Refuses grammar .words Symbol.iri (c :: tail ++ ' ' :: more) :=
    refuses_iri_of_word hasTokens hbase hname ⟨' ', more, rfl, Or.inl rfl⟩
  have hrefuses : ∀ e ∈ [.rule .var, .rule .literal, Symbol.numeric],
      Refuses grammar .words e (c :: tail ++ ' ' :: more) :=
    fun e he => refuses_of_head hword (hpeek e he) _
  exact (Leads.choice_right (hrefuses _ (by simp)) (Leads.choice_right hiri
    (Leads.choice_right (hrefuses _ (by simp)) (Leads.choice_right (hrefuses _ (by simp))
      hread.choice_left)))).choice_left

end Objects

/-! ## The same terms -/

/-- Whatever term Turtle makes of a node with the one outline, a query makes of a node with the
other. -/
def SameTerm (object : Outline Turtle.Symbol) (node : Outline Symbol) : Prop :=
  ∀ {s s' : Turtle.ReaderState} {tree : Turtle.Node} {t : Term},
    Turtle.grammar.outline tree = object → (Turtle.readTerm tree).run s = .ok (t, s') →
    s' = s ∧ ∀ tree', grammar.outline tree' = node →
      readPlace s.scope false tree' = pure (.term t, [])

section Terms

variable {cs : List Char} {nodes : List (Outline Turtle.Symbol)}

/-- The reader of Turtle takes what a token denotes and changes nothing. -/
theorem of_run_take {α : Type} {f : α → Term} {s s' : Turtle.ReaderState} {t : Term}
    {result : Except TokenFailure α}
    (h : (f <$> Turtle.take result : Turtle.ReaderM Term).run s = .ok (t, s')) :
    s' = s ∧ ∃ a, result = .ok a ∧ t = f a := by
  cases result with
  | error e => cases h
  | ok a =>
    cases h
    exact ⟨rfl, a, rfl, rfl⟩

/-- An IRI between angle brackets is the same term. -/
theorem sameTerm_iriRef {inner : List (Outline Turtle.Symbol)}
    (h : (Outline.node (.terminal .iriRef) cs inner : Outline Turtle.Symbol).IsOver isToken) :
    SameTerm (.node (.terminal .iriRef) cs inner)
      ((Outline.node (.terminal .iriRef) cs inner : Outline Turtle.Symbol).rename tokenSymbol) := by
  intro s s' tree t htree hrun
  obtain ⟨start, text, children, rfl, -, -⟩ := Grammar.eq_of_outline htree
  have htake : (Term.iri <$> Turtle.take (s.scope.iri Turtle.Symbol.terminal?
      (.node (.terminal .iriRef) start text children)) : Turtle.ReaderM Term).run s =
      .ok (t, s') := hrun
  obtain ⟨rfl, i, hi, rfl⟩ := of_run_take htake
  refine ⟨rfl, fun tree' htree' => ?_⟩
  have hsame := sameToken_of_outline renames_tokens manner_of_isToken terminal?_tokenSymbol h htree
    htree'
  have hi' := hsame.iri_eq hi
  obtain ⟨_, _, _, rfl, -, -⟩ := Grammar.eq_of_outline htree'
  show (do return (Place.term (← Term.iri <$> take (s'.scope.iri Symbol.terminal? _)), [])) = _
  rw [hi']
  rfl

/-- A literal is the same term. -/
theorem sameTerm_literal (h : ∀ o ∈ nodes, o.IsOver isToken) :
    SameTerm (.node .literal [] nodes)
      (.node .literal [] (Outline.renameAll tokenSymbol nodes)) := by
  intro s s' tree t htree hrun
  obtain ⟨start, text, children, rfl, hchildren, -⟩ := Grammar.eq_of_outline htree
  have htake : (Term.literal <$> Turtle.take (s.scope.literal Turtle.Symbol.terminal?
      (.node .literal start text children)) : Turtle.ReaderM Term).run s = .ok (t, s') := hrun
  obtain ⟨rfl, l, hl, rfl⟩ := of_run_take htake
  refine ⟨rfl, fun tree' htree' => ?_⟩
  obtain ⟨start', text', children', rfl, hchildren', -⟩ := Grammar.eq_of_outline htree'
  have hsame := sameTokens_of_outlines renames_tokens manner_of_isToken terminal?_tokenSymbol h
    hchildren hchildren'
  have hl' : s'.scope.literal Symbol.terminal? (.node .literal start' text' children') = .ok l :=
    literal_eq_of_sameTokens hsame hl
  show (do
    return (Place.term (← Term.literal <$> take (s'.scope.literal Symbol.terminal? _)), [])) = _
  rw [hl']
  rfl

/-- The datatype of the numbers of a rule. -/
def numberDatatype (t : Terminal) : Iri := t.numericDatatype?.getD Vocabulary.xsdInteger

/-- A query makes of a number its literal. -/
theorem readPlace_number {scope : IriScope} {t : Terminal} (ht : t ∈ Turtle.numberRules)
    {inner : List (Outline Turtle.Symbol)} {tree : Node}
    (htree : grammar.outline tree =
      (Outline.node (.terminal t) cs inner : Outline Turtle.Symbol).rename tokenSymbol) :
    readPlace scope false tree =
      pure (.term (.literal (Literal.typed (String.ofList cs) (numberDatatype t))), []) := by
  obtain ⟨_, _, _, rfl, -, htext⟩ := Grammar.eq_of_outline htree
  obtain rfl := hasTokens.text_eq htext
  simp only [Turtle.numberRules, List.mem_cons, List.not_mem_nil, or_false] at ht
  rcases ht with rfl | rfl | rfl <;> rfl

/-- A number is the same term. -/
theorem sameTerm_number {t : Terminal} (ht : t ∈ Turtle.numberRules)
    {inner : List (Outline Turtle.Symbol)} :
    SameTerm (.node (.terminal t) cs inner)
      ((Outline.node (.terminal t) cs inner : Outline Turtle.Symbol).rename tokenSymbol) := by
  intro s s' tree term htree hrun
  obtain ⟨start, text, children, rfl, -, htext⟩ := Grammar.eq_of_outline htree
  obtain rfl := Turtle.hasTokens.text_eq htext
  have hnumber : s' = s ∧
      term = .literal (Literal.typed (String.ofList text) (numberDatatype t)) := by
    simp only [Turtle.numberRules, List.mem_cons, List.not_mem_nil, or_false] at ht
    rcases ht with rfl | rfl | rfl <;>
    · cases hrun
      exact ⟨rfl, rfl⟩
  obtain ⟨rfl, rfl⟩ := hnumber
  exact ⟨rfl, fun _ => readPlace_number ht⟩

/-- A truth value is the same term. -/
theorem sameTerm_boolean (h : cs = ['t', 'r', 'u', 'e'] ∨ cs = ['f', 'a', 'l', 's', 'e']) :
    SameTerm (.node .boolean cs []) (.node .boolean cs []) := by
  intro s s' tree t htree hrun
  obtain ⟨start, text, children, rfl, -, htext⟩ := Grammar.eq_of_outline htree
  rw [Grammar.outlineText, if_neg (by decide)] at htext
  subst htext
  cases hrun
  refine ⟨rfl, fun tree' htree' => ?_⟩
  obtain ⟨_, _, _, rfl, -, htext'⟩ := Grammar.eq_of_outline htree'
  rw [Grammar.outlineText, if_neg (by decide)] at htext'
  subst htext'
  rcases h with rfl | rfl <;> rfl

end Terms

/-- A text of a term is an object of Turtle and an object of a query, and the same term. -/
theorem exists_node {cs : List Char} (h : Turtle.TermForm cs) :
    ∃ inComment object node, Turtle.IsObject cs inComment object ∧ IsNode cs inComment node ∧
      SameTerm object node := by
  cases h with
  | iri h =>
    have hover := h.isOver renames_tokens.isClosed rfl _ List.mem_cons_self
    exact ⟨_, _, _, Turtle.isObject_iriRef h, isNode_iriRef h, sameTerm_iriRef hover⟩
  | literal h =>
    have hstart := Turtle.literal_start h
    have hover := h.isOver renames_tokens.isClosed rfl
    obtain ⟨inComment, hleads⟩ := Turtle.leads_literal_of_runs h
    exact ⟨inComment, _, _, Turtle.isObject_literal hstart hleads, isNode_literal hstart hleads,
      sameTerm_literal hover⟩
  | number ht h => exact ⟨_, _, _, Turtle.isObject_numeric h, isNode_numeric h, sameTerm_number ht⟩
  | boolean h => exact ⟨_, _, _, Turtle.isObject_boolean h, isNode_boolean h, sameTerm_boolean h⟩

end RdfStore.Query
