import Mathlib.Data.List.Basic
import RdfStore.Proofs.Turtle.BeforeSpace

/-!
# Texts of terms

A text that is a whole IRI between angle brackets, literal, number or truth value has one of four
forms, whose first character tells them apart. Before a space it is read as an object, and without
a plus sign at its start a number still is one.
-/

set_option autoImplicit false

namespace RdfStore.Turtle

open RdfStore.Peg RdfStore.Syntax RdfStore.Text

/-! ## Texts of terms -/

/-- The expressions that write an IRI, a literal, a number or a truth value. -/
def termForms : List (Expr Symbol) :=
  [.rule (.terminal .iriRef), .rule .literal, Terminal.numeric .terminal, .rule .boolean]

/-- One of the forms of terms matches a text as a whole. -/
def IsTermText (cs : List Char) : Prop :=
  ∃ e ∈ termForms, ∃ nodes, Reads grammar .words e cs nodes []

/-- The characters that a number starts with. -/
def numberStarts : List Char := ['+', '-', '.'] ++ decimalDigits

/-- A number without a sign may start with any digit. -/
theorem mem_numberStarts {c : Char} (h : isAsciiDigit c = true) : c ∈ numberStarts :=
  List.mem_append_right ['+', '-', '.'] (mem_decimalDigits h)

section Forms

variable {cs rest : List Char} {nodes : List (Outline Symbol)} {mode : Mode}

/-- The character that a class reads. -/
theorem exists_of_char {isMember : Char → Bool}
    (h : Runs grammar mode (.once (.char isMember)) cs (some (nodes, rest))) :
    ∃ c, cs = c :: rest ∧ isMember c = true := by
  cases h with
  | char h => exact ⟨_, rfl, h⟩

/-- A sign that may be missing. -/
theorem of_sign (h : Runs grammar mode (.once Terminal.sign) cs (some (nodes, rest))) :
    rest = cs ∨ cs = '+' :: rest ∨ cs = '-' :: rest := by
  cases h with
  | choice_left h =>
    obtain ⟨c, rfl, hc⟩ := exists_of_char h
    simp only [Bool.or_eq_true, beq_iff_eq] at hc
    exact Or.inr (hc.imp (fun hc => by rw [hc]) fun hc => by rw [hc])
  | choice_right _ h =>
    cases h with
    | nothing => exact Or.inl rfl

/-- The rules of numbers. -/
def numberRules : List Terminal := [.double, .decimal, .integer]

/-- What follows the sign of a number. -/
def unsigned (t : Terminal) : Expr Symbol :=
  match (t.production Symbol.terminal).body with
  | .seq _ magnitude => magnitude
  | e => e

/-- A number is a sign and what follows it. -/
theorem production_number {t : Terminal} (ht : t ∈ numberRules) :
    grammar.production (.terminal t) = ⟨.token, .seq Terminal.sign (unsigned t)⟩ := by
  simp only [numberRules, List.mem_cons, List.not_mem_nil, or_false] at ht
  rcases ht with rfl | rfl | rfl <;> rfl

/-- A text that starts like a number without a sign: with a digit or a dot. -/
def StartsUnsigned (cs : List Char) : Prop :=
  ∃ c tail, cs = c :: tail ∧ (isAsciiDigit c = true ∨ c = '.')

/-- What is read with a digit in front starts without a sign. -/
theorem startsUnsigned_digit {e : Expr Symbol}
    (h : Runs grammar .token (.once (.seq (.char isAsciiDigit) e)) cs (some (nodes, rest))) :
    StartsUnsigned cs := by
  cases h with
  | seq h _ =>
    obtain ⟨c, rfl, hc⟩ := exists_of_char h
    exact ⟨c, _, rfl, Or.inl hc⟩

/-- What is read with a dot in front starts without a sign. -/
theorem startsUnsigned_dot {e : Expr Symbol}
    (h : Runs grammar .token (.once (.seq (.one '.') e)) cs (some (nodes, rest))) :
    StartsUnsigned cs := by
  cases h with
  | seq h _ =>
    obtain ⟨c, rfl, hc⟩ := exists_of_char h
    exact ⟨c, _, rfl, Or.inr (beq_iff_eq.mp hc)⟩

/-- What is read with digits in front starts without a sign. -/
theorem startsUnsigned_digits {e : Expr Symbol}
    (h : Runs grammar .token (.once (.seq Terminal.digits e)) cs (some (nodes, rest))) :
    StartsUnsigned cs := by
  cases h with
  | seq h _ => exact startsUnsigned_digit h

/-- Without its sign a number starts with a digit or a dot. -/
theorem startsUnsigned_of_unsigned {t : Terminal} (ht : t ∈ numberRules)
    (h : Runs grammar .token (.once (unsigned t)) cs (some (nodes, rest))) :
    StartsUnsigned cs := by
  simp only [numberRules, List.mem_cons, List.not_mem_nil, or_false] at ht
  rcases ht with rfl | rfl | rfl
  · cases h with
    | choice_left h => exact startsUnsigned_digits h
    | choice_right _ h =>
      cases h with
      | choice_left h => exact startsUnsigned_dot h
      | choice_right _ h => exact startsUnsigned_digits h
  · cases h with
    | seq h h' =>
      cases h with
      | star_stop _ => exact startsUnsigned_dot h'
      | star h _ =>
        obtain ⟨c, rfl, hc⟩ := exists_of_char h
        exact ⟨c, _, rfl, Or.inl hc⟩
  · exact startsUnsigned_digit h

/-- What a number is, rule by rule. -/
theorem exists_of_numeric
    (h : Runs grammar .words (.once (Terminal.numeric .terminal)) cs (some (nodes, rest))) :
    ∃ t ∈ numberRules,
      Runs grammar .words (.once (.rule (.terminal t))) cs (some (nodes, rest)) := by
  cases h with
  | choice_left h => exact ⟨.double, by decide, h⟩
  | choice_right _ h =>
    cases h with
    | choice_left h => exact ⟨.decimal, by decide, h⟩
    | choice_right _ h => exact ⟨.integer, by decide, h⟩

/-- A number is matched as its sign and then what follows it are. -/
theorem exists_of_number {t : Terminal} (ht : t ∈ numberRules) {result : Result Symbol}
    (h : Runs grammar .words (.once (.rule (.terminal t))) cs result) :
    ∃ nodes mid result', Runs grammar .token (.once Terminal.sign) cs (some (nodes, mid)) ∧
      Runs grammar .token (.once (unsigned t)) mid result' ∧
      result'.map Prod.snd = result.map Prod.snd := by
  cases h with
  | rule _ h =>
    rw [production_number ht] at h
    cases h with
    | seq h h' => exact ⟨_, _, _, h, h', rfl⟩
  | rule_failed h =>
    rw [production_number ht] at h
    cases h with
    | seq_left h =>
      cases h with
      | choice_right _ h => cases h
    | seq_right h h' => exact ⟨_, _, _, h, h', rfl⟩

/-- A sign and what follows it are matched as a number is. -/
theorem exists_number {t : Terminal} (ht : t ∈ numberRules) {mid : List Char}
    {result : Result Symbol}
    (h : Runs grammar .token (.once Terminal.sign) cs (some (nodes, mid)))
    (h' : Runs grammar .token (.once (unsigned t)) mid result) :
    ∃ result', Runs grammar .words (.once (.rule (.terminal t))) cs result' ∧
      result'.map Prod.snd = result.map Prod.snd := by
  have hproduction := production_number ht
  cases result with
  | none =>
    have hbody : Runs grammar .token (.once (.seq Terminal.sign (unsigned t))) cs none :=
      .seq_right h h'
    refine ⟨none, .rule_failed ?_, rfl⟩
    rw [hproduction]
    exact hbody
  | some ending =>
    obtain ⟨more, rest⟩ := ending
    have hbody : Runs grammar .token (.once (.seq Terminal.sign (unsigned t))) cs
        (some (nodes ++ more, rest)) := .seq h h'
    obtain ⟨taken, htaken, -⟩ := hbody.reads
    have hrule : Runs grammar .words (.once (.rule (.terminal t))) cs
        (some (grammar.around (.terminal t) .words taken (nodes ++ more), rest)) := by
      refine .rule htaken ?_
      rw [hproduction]
      exact hbody
    exact ⟨_, hrule, rfl⟩

/-- A number starts with a sign, a digit or a dot. -/
theorem numeric_start
    (h : Runs grammar .words (.once (Terminal.numeric .terminal)) cs (some (nodes, rest))) :
    ∃ c tail, cs = c :: tail ∧ c ∈ numberStarts := by
  obtain ⟨t, ht, hrule⟩ := exists_of_numeric h
  obtain ⟨_, mid, result, hsign, hmagnitude, hresult⟩ := exists_of_number ht hrule
  obtain ⟨⟨more, end'⟩, rfl, -⟩ := Option.map_eq_some_iff.mp hresult
  rcases of_sign hsign with rfl | rfl | rfl
  · obtain ⟨c, tail, hcs, hc⟩ := startsUnsigned_of_unsigned ht hmagnitude
    refine ⟨c, tail, hcs, ?_⟩
    rcases hc with hc | rfl
    · exact mem_numberStarts hc
    · decide
  · exact ⟨'+', _, rfl, by decide⟩
  · exact ⟨'-', _, rfl, by decide⟩

/-- A truth value is one of two words. -/
theorem eq_of_boolean
    (h : Runs grammar .words (.once (.rule .boolean)) cs (some (nodes, []))) :
    cs = "true".toList ∨ cs = "false".toList := by
  cases h with
  | rule _ h =>
    cases h with
    | seq h hend =>
      cases hend with
      | notAhead _ =>
        cases h with
        | choice_left h => exact Or.inl (eq_append_of_text h)
        | choice_right _ h => exact Or.inr (eq_append_of_text h)

/-- A sign is missing before any other character. -/
theorem runs_sign_missing (h : ∀ c ∈ cs.head?, c ≠ '+' ∧ c ≠ '-') :
    Runs grammar .token (.once Terminal.sign) cs (some ([], cs)) := by
  refine .choice_right (.char_failed fun c hc => ?_) .nothing
  simp [h c hc]

/-- A plus sign is read as a sign. -/
theorem eq_of_plus (h : Runs grammar .token (.once Terminal.sign) ('+' :: cs)
    (some (nodes, rest))) : rest = cs := by
  cases h with
  | choice_left h => exact (exists_of_char h).elim fun _ hc => (List.cons.inj hc.1).2.symm
  | choice_right h _ =>
    cases h with
    | char_failed h => exact absurd (h '+' rfl) (by decide)

/-- Behind a plus sign a number has no other sign. -/
theorem startsUnsigned_of_plus
    (h : Runs grammar .words (.once (Terminal.numeric .terminal)) ('+' :: cs)
      (some (nodes, rest))) : StartsUnsigned cs := by
  obtain ⟨t, ht, hrule⟩ := exists_of_numeric h
  obtain ⟨_, mid, result, hsign, hmagnitude, hresult⟩ := exists_of_number ht hrule
  obtain ⟨⟨more, end'⟩, rfl, -⟩ := Option.map_eq_some_iff.mp hresult
  obtain rfl := eq_of_plus hsign
  exact startsUnsigned_of_unsigned ht hmagnitude

/-- A text that starts with a digit or a dot starts with no sign. -/
theorem StartsUnsigned.head (h : StartsUnsigned cs) : ∀ c ∈ cs.head?, c ≠ '+' ∧ c ≠ '-' := by
  obtain ⟨c, tail, rfl, hc⟩ := h
  rintro _ ⟨⟩
  rcases hc with hc | rfl
  · constructor <;>
    · rintro rfl
      cases hc
  · decide

/-- A rule of numbers ends alike with a plus sign and without it. -/
theorem number_of_plus {t : Terminal} (ht : t ∈ numberRules) (hcs : StartsUnsigned cs)
    {result : Result Symbol}
    (h : Runs grammar .words (.once (.rule (.terminal t))) ('+' :: cs) result) :
    ∃ result', Runs grammar .words (.once (.rule (.terminal t))) cs result' ∧
      result'.map Prod.snd = result.map Prod.snd := by
  obtain ⟨_, mid, result₁, hsign, hmagnitude, hresult⟩ := exists_of_number ht h
  obtain rfl := eq_of_plus hsign
  obtain ⟨result₂, hrun, hresult'⟩ := exists_number ht (runs_sign_missing hcs.head) hmagnitude
  exact ⟨result₂, hrun, hresult'.trans hresult⟩

/-- What follows a plus sign that starts a number is a number. -/
theorem numeric_of_plus
    (h : Runs grammar .words (.once (Terminal.numeric .terminal)) ('+' :: cs)
      (some (nodes, rest))) :
    ∃ nodes', Runs grammar .words (.once (Terminal.numeric .terminal)) cs
      (some (nodes', rest)) := by
  have hcs := startsUnsigned_of_plus h
  have hread : ∀ {t}, t ∈ numberRules → ∀ {nodes rest},
      Runs grammar .words (.once (.rule (.terminal t))) ('+' :: cs) (some (nodes, rest)) →
      ∃ nodes', Runs grammar .words (.once (.rule (.terminal t))) cs (some (nodes', rest)) := by
    intro t ht nodes rest hrun
    obtain ⟨result, hrun', hresult⟩ := number_of_plus ht hcs hrun
    obtain ⟨⟨nodes', _⟩, rfl, rfl⟩ := Option.map_eq_some_iff.mp hresult
    exact ⟨nodes', hrun'⟩
  have hfailed : ∀ {t}, t ∈ numberRules →
      Runs grammar .words (.once (.rule (.terminal t))) ('+' :: cs) none →
      Runs grammar .words (.once (.rule (.terminal t))) cs none := by
    intro t ht hrun
    obtain ⟨result, hrun', hresult⟩ := number_of_plus ht hcs hrun
    cases result with
    | none => exact hrun'
    | some _ => cases hresult
  -- the rules are tried in their order with the sign and without it
  cases h with
  | choice_left h => exact (hread (by decide) h).imp fun _ => .choice_left
  | choice_right h h' =>
    cases h' with
    | choice_left h' =>
      exact (hread (by decide) h').imp fun _ hrun =>
        .choice_right (hfailed (by decide) h) (.choice_left hrun)
    | choice_right h₂ h₃ =>
      exact (hread (by decide) h₃).imp fun _ hrun =>
        .choice_right (hfailed (by decide) h) (.choice_right (hfailed (by decide) h₂) hrun)

end Forms

/-! ## Objects -/

/-- A text is read as an object before a space, where a comment at its end goes on. -/
structure IsObject (cs : List Char) (inComment : Bool) (object : Outline Symbol) : Prop where
  start : ∃ c tail, cs = c :: tail ∧ isWordStart c = true
  leads : ∀ more, Refuses grammar .words suffix (wordsFrom inComment more) →
    Leads grammar Symbol.object (cs ++ ' ' :: more) [object] (wordsFrom inComment more)

section Objects

variable {cs rest : List Char} {nodes : List (Outline Symbol)}

/-- An IRI between angle brackets starts with one. -/
theorem iriRef_start (h : Runs grammar .words (.once (.rule (.terminal .iriRef))) cs
    (some (nodes, rest))) : ∃ tail, cs = '<' :: tail := by
  cases h with
  | rule _ h =>
    cases h with
    | seq h _ =>
      obtain ⟨c, rfl, hc⟩ := exists_of_char h
      exact ⟨_, by rw [beq_iff_eq.mp hc]⟩

/-- A string starts with a quote. -/
theorem anyString_start (h : Runs grammar .words (.once (Terminal.anyString .terminal)) cs
    (some (nodes, rest))) : ∃ c tail, cs = c :: tail ∧ (c = '"' ∨ c = '\x27') := by
  have hstart : ∀ {t : Terminal} {quote quotes content},
      grammar.production (.terminal t) = ⟨.compound, Terminal.string (quote :: quotes) content⟩ →
      Runs grammar .words (.once (.rule (.terminal t))) cs (some (nodes, rest)) →
      ∃ tail, cs = quote :: tail :=
    fun hr h => (exists_of_string hr h).elim fun _ hcs => ⟨_, hcs⟩
  cases h with
  | choice_left h => exact (hstart rfl h).elim fun tail hcs => ⟨_, tail, hcs, Or.inl rfl⟩
  | choice_right _ h =>
    cases h with
    | choice_left h => exact (hstart rfl h).elim fun tail hcs => ⟨_, tail, hcs, Or.inr rfl⟩
    | choice_right _ h =>
      cases h with
      | choice_left h => exact (hstart rfl h).elim fun tail hcs => ⟨_, tail, hcs, Or.inl rfl⟩
      | choice_right _ h => exact (hstart rfl h).elim fun tail hcs => ⟨_, tail, hcs, Or.inr rfl⟩

/-- A token leaves one node. -/
theorem exists_of_terminal {t : Terminal}
    (h : Runs grammar .words (.once (.rule (.terminal t))) cs (some (nodes, []))) :
    ∃ inner, nodes = [.node (.terminal t) cs inner] := by
  generalize hrest : ([] : List Char) = rest at h
  cases h with
  | @rule _ _ _ taken _ inner hcs _ =>
    subst hrest
    rw [List.append_nil] at hcs
    subst hcs
    have hvisible : (grammar.production (.terminal t)).manner.isVisible .words = true :=
      isVisible_terminal Symbol.terminal t (by decide)
    have hwords : (grammar.production (.terminal t)).manner ≠ .words :=
      manner_ne_words Symbol.terminal t
    refine ⟨inner, ?_⟩
    rw [Grammar.around, if_pos hvisible, Grammar.outlineText, if_neg hwords]

/-- An IRI between angle brackets is read as an object. -/
theorem isObject_iriRef {object : Outline Symbol}
    (h : Runs grammar .words (.once (.rule (.terminal .iriRef))) cs (some ([object], []))) :
    IsObject cs false object := by
  obtain ⟨tail, hcs⟩ := iriRef_start h
  refine ⟨⟨'<', tail, hcs, rfl⟩, fun more _ => ?_⟩
  have hread := (prolongs_rule rfl cs _ more h).reads
  exact (hread.leads (wordsFrom_space false more)).choice_left.choice_left

/-- The forms of objects that are no literals. -/
def otherObjects : List (Expr Symbol) :=
  [Symbol.iri, Symbol.blankNode, .rule .collection, .rule .blankNodePropertyList]

/-- Before what starts like no IRI, blank node or list, an object is a literal. -/
theorem leads_object_of_literal {c : Char} {object : Outline Symbol} {next : List Char}
    (hword : isWordStart c = true)
    (hother : ∀ e ∈ otherObjects, e.peek (grammar.peek (some c) 4) (some c) = .fails)
    (h : Leads grammar Symbol.anyLiteral (c :: cs) [object] next) :
    Leads grammar Symbol.object (c :: cs) [object] next :=
  have hrefuses : ∀ e ∈ otherObjects, Refuses grammar .words e (c :: cs) :=
    fun e he => refuses_of_head hword (hother e he) cs
  Leads.choice_right (hrefuses _ (by simp [otherObjects]))
    (Leads.choice_right (hrefuses _ (by simp [otherObjects]))
      (Leads.choice_right (hrefuses _ (by simp [otherObjects]))
        (Leads.choice_right (hrefuses _ (by simp [otherObjects])) h)))

/-- A literal starts with a quote. -/
theorem literal_start (h : Runs grammar .words (.once (Terminal.literal .terminal)) cs
    (some (nodes, rest))) : ∃ c tail, cs = c :: tail ∧ (c = '"' ∨ c = '\x27') := by
  cases h with
  | seq h _ => exact anyString_start h

/-- A literal is read as an object. -/
theorem isObject_literal {inComment : Bool}
    (hstart : ∃ c tail, cs = c :: tail ∧ (c = '"' ∨ c = '\x27'))
    (h : ∀ more, Refuses grammar .words suffix (wordsFrom inComment more) →
      Leads grammar (Terminal.literal .terminal) (cs ++ ' ' :: more) nodes
        (wordsFrom inComment more)) :
    IsObject cs inComment (.node .literal [] nodes) := by
  obtain ⟨c, tail, rfl, hc⟩ := hstart
  refine ⟨⟨c, tail, rfl, by rcases hc with rfl | rfl <;> rfl⟩, fun more hmore => ?_⟩
  have hrule : Leads grammar Symbol.anyLiteral (c :: tail ++ ' ' :: more)
      [.node .literal [] nodes] (wordsFrom inComment more) :=
    (Leads.rule_words rfl (h more hmore)).choice_left
  rcases hc with rfl | rfl
  · exact leads_object_of_literal rfl (by decide) hrule
  · exact leads_object_of_literal rfl (by decide) hrule

/-- What starts like a number is a word, and no other object. -/
theorem numberStarts_peek : ∀ c ∈ numberStarts, isWordStart c = true ∧
    ∀ e ∈ .rule .literal :: otherObjects, e.peek (grammar.peek (some c) 4) (some c) = .fails :=
  List.forall_iff_forall_mem.mp (by decide)

/-- A number is read as an object. -/
theorem isObject_numeric {object : Outline Symbol}
    (h : Runs grammar .words (.once (Terminal.numeric .terminal)) cs (some ([object], []))) :
    IsObject cs false object := by
  obtain ⟨c, tail, rfl, hc⟩ := numeric_start h
  obtain ⟨hword, hpeek⟩ := numberStarts_peek c hc
  refine ⟨⟨c, tail, rfl, hword⟩, fun more _ => ?_⟩
  have hread := (prolongs_numeric _ _ more h).reads.leads (wordsFrom_space false more)
  have hliteral : Refuses grammar .words (.rule .literal) (c :: tail ++ ' ' :: more) :=
    refuses_of_head hword (hpeek _ List.mem_cons_self) _
  exact leads_object_of_literal hword (fun e he => hpeek e (List.mem_cons_of_mem _ he))
    (Leads.choice_right hliteral hread.choice_left)

/-- A truth value is read before a space. -/
theorem reads_boolean (h : cs = ['t', 'r', 'u', 'e'] ∨ cs = ['f', 'a', 'l', 's', 'e'])
    (more : List Char) :
    Reads grammar .words (.rule .boolean) (cs ++ ' ' :: more) [.node .boolean cs []]
      (' ' :: more) := by
  have hend : Reads grammar .token Symbol.wordEnd (' ' :: more) [] (' ' :: more) :=
    (refuses_char rfl more).notAhead
  have hword : Reads grammar .token (.choice (.lit "true") (.lit "false")) (cs ++ ' ' :: more) []
      (' ' :: more) := by
    rcases h with rfl | rfl
    · exact (reads_text ['t', 'r', 'u', 'e'] _).choice_left
    · exact Reads.choice_right (refuses_text rfl) (reads_text ['f', 'a', 'l', 's', 'e'] _)
  have hbody : Reads grammar .token (grammar.production .boolean).body (cs ++ ' ' :: more) []
      (' ' :: more) := hword.seq hend
  exact Reads.rule_text (by decide) rfl hbody

/-- A truth value is read as an object. -/
theorem isObject_boolean (h : cs = ['t', 'r', 'u', 'e'] ∨ cs = ['f', 'a', 'l', 's', 'e']) :
    IsObject cs false (.node .boolean cs []) := by
  have hstart : ∃ c tail, cs = c :: tail ∧ isNameBase c = true ∧ (∀ d ∈ tail, isNameChar d = true) ∧
      isWordStart c = true ∧ ∀ e ∈ [Symbol.blankNode, .rule .collection,
        .rule .blankNodePropertyList, .rule .literal, Terminal.numeric .terminal],
        e.peek (grammar.peek (some c) 4) (some c) = .fails := by
    rcases h with rfl | rfl
    · exact ⟨'t', _, rfl, rfl, List.all_eq_true.mp rfl, rfl, by decide⟩
    · exact ⟨'f', _, rfl, rfl, List.all_eq_true.mp rfl, rfl, by decide⟩
  refine ⟨hstart.imp fun c => Exists.imp fun _ h => ⟨h.1, h.2.2.2.1⟩, fun more _ => ?_⟩
  have hread := (reads_boolean h more).leads (wordsFrom_space false more)
  obtain ⟨c, tail, rfl, hbase, hname, hword, hpeek⟩ := hstart
  have hiri : Refuses grammar .words Symbol.iri (c :: tail ++ ' ' :: more) :=
    refuses_iri_of_word hasTokens hbase hname ⟨' ', more, rfl, Or.inl rfl⟩
  have hrefuses : ∀ e ∈ [Symbol.blankNode, .rule .collection, .rule .blankNodePropertyList,
      .rule .literal, Terminal.numeric .terminal],
      Refuses grammar .words e (c :: tail ++ ' ' :: more) :=
    fun e he => refuses_of_head hword (hpeek e he) _
  exact Leads.choice_right hiri (Leads.choice_right (hrefuses _ (by simp))
    (Leads.choice_right (hrefuses _ (by simp)) (Leads.choice_right (hrefuses _ (by simp))
      (Leads.choice_right (hrefuses _ (by simp)) (Leads.choice_right (hrefuses _ (by simp))
        hread)))))

end Objects

/-- What a text of a term is, form by form. -/
inductive TermForm (cs : List Char) : Prop where
  | iri {inner : List (Outline Symbol)}
    (h : Runs grammar .words (.once (.rule (.terminal .iriRef))) cs
      (some ([.node (.terminal .iriRef) cs inner], [])))
  | literal {nodes : List (Outline Symbol)}
    (h : Runs grammar .words (.once (Terminal.literal .terminal)) cs (some (nodes, [])))
  | number {t : Terminal} {inner : List (Outline Symbol)} (ht : t ∈ numberRules)
    (h : Runs grammar .words (.once (Terminal.numeric .terminal)) cs
      (some ([.node (.terminal t) cs inner], [])))
  | boolean (h : cs = ['t', 'r', 'u', 'e'] ∨ cs = ['f', 'a', 'l', 's', 'e'])

/-- A text of a term has one of the forms. -/
theorem IsTermText.form {cs : List Char} (h : IsTermText cs) : TermForm cs := by
  obtain ⟨e, he, nodes, hread⟩ := h
  have hrun := hread.runs
  simp only [termForms, List.mem_cons, List.not_mem_nil, or_false] at he
  rcases he with rfl | rfl | rfl | rfl
  · obtain ⟨inner, rfl⟩ := exists_of_terminal hrun
    exact .iri hrun
  · cases hrun with
    | rule _ h => exact .literal h
  · obtain ⟨t, ht, hrule⟩ := exists_of_numeric hrun
    obtain ⟨inner, rfl⟩ := exists_of_terminal hrule
    exact .number ht hrun
  · exact .boolean (eq_of_boolean hrun)

/-- The characters that a term starts with. -/
def termStarts : List Char := '<' :: '"' :: '\x27' :: 't' :: 'f' :: numberStarts

/-- A text of a term starts with one of these characters. -/
theorem TermForm.start {cs : List Char} (h : TermForm cs) :
    ∃ c tail, cs = c :: tail ∧ c ∈ termStarts := by
  cases h with
  | iri h =>
    obtain ⟨tail, hcs⟩ := iriRef_start h
    exact ⟨'<', tail, hcs, by decide⟩
  | literal h =>
    obtain ⟨c, tail, hcs, rfl | rfl⟩ := literal_start h
    · exact ⟨'"', tail, hcs, by decide⟩
    · exact ⟨'\x27', tail, hcs, by decide⟩
  | number _ h =>
    obtain ⟨c, tail, hcs, hc⟩ := numeric_start h
    exact ⟨c, tail, hcs, List.mem_append_right ['<', '"', '\x27', 't', 'f'] hc⟩
  | boolean h =>
    rcases h with rfl | rfl
    · exact ⟨'t', _, rfl, by decide⟩
    · exact ⟨'f', _, rfl, by decide⟩

/-- What follows a plus sign at the start of a term is a number. -/
theorem TermForm.of_plus {cs : List Char} (h : TermForm ('+' :: cs)) :
    ∃ t ∈ numberRules, ∃ inner, Runs grammar .words (.once (Terminal.numeric .terminal)) cs
      (some ([.node (.terminal t) cs inner], [])) := by
  cases h with
  | iri h => exact nomatch iriRef_start h
  | literal h =>
    obtain ⟨c, tail, hcs, rfl | rfl⟩ := literal_start h <;> cases hcs
  | number _ h =>
    obtain ⟨nodes, hrun⟩ := numeric_of_plus h
    obtain ⟨t, ht, hrule⟩ := exists_of_numeric hrun
    obtain ⟨inner, rfl⟩ := exists_of_terminal hrule
    exact ⟨t, ht, inner, hrun⟩
  | boolean h => rcases h with h | h <;> cases h

end RdfStore.Turtle
