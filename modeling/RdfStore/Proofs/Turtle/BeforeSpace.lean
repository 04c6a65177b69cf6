import RdfStore.Proofs.Peg.Prolong
import RdfStore.Proofs.Turtle.Document

/-!
# Texts before a space

Tokens of which no part takes a blank, strings and literals are read alike before a space and any
other text. A token stops at the space, and a string ends before the text does. Behind the string
of a literal blanks may belong to it, so a literal that ends inside a comment goes on, and what
looks like its language tag or datatype would.
-/

set_option autoImplicit false

namespace RdfStore.Turtle

open RdfStore.Peg RdfStore.Syntax RdfStore.Text

/-! ## Blanks and comments in longer texts -/

/-- The text from its first word on, if it may start inside a comment. -/
def wordsFrom (inComment : Bool) (cs : List Char) : List Char :=
  cs.drop (blankLengthFrom inComment cs)

/-- From its first word on a text starts with a word. -/
theorem wordsOf_wordsFrom (inComment : Bool) (cs : List Char) :
    wordsOf (wordsFrom inComment cs) = wordsFrom inComment cs := by
  show (wordsFrom inComment cs).drop (blankLengthFrom false (wordsFrom inComment cs)) = _
  rw [wordsFrom, blankLengthFrom_drop, List.drop_zero]

/-- A word of a text is a word of a longer one. -/
theorem wordsFrom_append {inComment : Bool} {cs : List Char} (h : wordsFrom inComment cs ≠ [])
    (more : List Char) : wordsFrom inComment (cs ++ more) = wordsFrom inComment cs ++ more := by
  unfold wordsFrom at h ⊢
  fun_induction blankLengthFrom inComment cs with
  | case1 => exact absurd rfl h
  | case2 c cs hend ih =>
    rw [List.cons_append, blankLengthFrom, if_pos hend]
    exact ih h
  | case3 c cs hend ih =>
    rw [List.cons_append, blankLengthFrom, if_neg hend]
    exact ih h
  | case4 c cs hblank ih =>
    rw [List.cons_append, blankLengthFrom, if_pos hblank]
    exact ih h
  | case5 cs hblank ih =>
    rw [List.cons_append, blankLengthFrom, if_neg hblank, if_pos rfl]
    exact ih h
  | case6 c cs hblank hcomment =>
    rw [List.cons_append, blankLengthFrom, if_neg hblank, if_neg hcomment]
    rfl

/-- A text without words ends inside a comment or not, and only that matters for what follows. -/
theorem exists_wordsFrom_append {inComment : Bool} {cs : List Char}
    (h : wordsFrom inComment cs = []) :
    ∃ inComment', ∀ more, wordsFrom inComment (cs ++ more) = wordsFrom inComment' more := by
  unfold wordsFrom at h ⊢
  fun_induction blankLengthFrom inComment cs with
  | case1 inComment => exact ⟨inComment, fun _ => rfl⟩
  | case2 c cs hend ih =>
    refine (ih h).imp fun _ hmore more => ?_
    rw [List.cons_append, blankLengthFrom, if_pos hend]
    exact hmore more
  | case3 c cs hend ih =>
    refine (ih h).imp fun _ hmore more => ?_
    rw [List.cons_append, blankLengthFrom, if_neg hend]
    exact hmore more
  | case4 c cs hblank ih =>
    refine (ih h).imp fun _ hmore more => ?_
    rw [List.cons_append, blankLengthFrom, if_pos hblank]
    exact hmore more
  | case5 cs hblank ih =>
    refine (ih h).imp fun _ hmore more => ?_
    rw [List.cons_append, blankLengthFrom, if_neg hblank, if_pos rfl]
    exact hmore more
  | case6 c cs hblank hcomment => cases h

/-- A space does not matter, inside a comment or before a word. -/
theorem wordsFrom_space (inComment : Bool) (cs : List Char) :
    wordsFrom inComment (' ' :: cs) = wordsFrom inComment cs := by
  cases inComment <;> rfl

/-! ## Rules that are read alike before a space -/

/-- An expression is matched alike before a space. -/
def Prolongs (e : Expr Symbol) (cs : List Char) : Prop :=
  ∀ result more, Runs grammar .words (.once e) cs result →
    Runs grammar .words (.once e) (cs ++ ' ' :: more) (result.append (' ' :: more))

/-- A choice is matched alike if its expressions are. -/
theorem Prolongs.choice {first second : Expr Symbol} {cs : List Char} (h : Prolongs first cs)
    (h' : Prolongs second cs) : Prolongs (.choice first second) cs := by
  intro result more hrun
  cases hrun with
  | choice_left hfirst => exact .choice_left (h _ more hfirst)
  | choice_right hfirst hsecond => exact .choice_right (h _ more hfirst) (h' _ more hsecond)

/-- The rules of tokens of which no part takes a blank. -/
def endsAtBlank : Symbol → Bool
  | .terminal t => match t with
    | .iriRef | .iriContent | .prefixedSpace | .prefixedName | .localName | .languageTag
    | .integer | .decimal | .double => true
    | _ => false
  | .boolean => true
  | _ => false

/-- No rule that ends at a blank reads one. -/
theorem rejects_space : grammar.Rejects ' ' endsAtBlank := by
  intro r hr
  cases r with
  | terminal t => cases t <;> first | cases hr; done | decide
  | boolean => decide
  | _ => cases hr

/-- A token of which no part takes a blank is matched alike before a space. -/
theorem prolongs_rule {r : Symbol} (hr : endsAtBlank r = true) (cs : List Char) :
    Prolongs (.rule r) cs := by
  refine fun result more h => h.prolong_rule rejects_space ?_ hr more
  cases r with
  | terminal t => cases t <;> first | cases hr; done | exact nofun
  | boolean => exact nofun
  | _ => cases hr

/-- A blank behind an address or a prefixed name does not change how it is read. -/
theorem prolongs_iri (cs : List Char) : Prolongs Symbol.iri cs :=
  (prolongs_rule rfl cs).choice ((prolongs_rule rfl cs).choice (prolongs_rule rfl cs))

/-- A blank behind a number does not change how it is read. -/
theorem prolongs_numeric (cs : List Char) : Prolongs (Terminal.numeric .terminal) cs :=
  (prolongs_rule rfl cs).choice ((prolongs_rule rfl cs).choice (prolongs_rule rfl cs))

/-! ## Strings -/

section Strings

variable {cs rest more : List Char} {nodes : List (Outline Symbol)} {result : Result Symbol}

/-- An escape or a plain character. -/
def escapeOr (isPlain : Char → Bool) : Expr Symbol :=
  .choices [Terminal.letterEscape, Terminal.numericEscape, .char isPlain]

/-- An escape or a plain character is matched alike if the text does not end there. -/
theorem prolong_escapeOr {isPlain : Char → Bool} (hcs : cs ≠ [])
    (h : Runs grammar .token (.once (escapeOr isPlain)) cs result) :
    Runs grammar .token (.once (escapeOr isPlain)) (cs ++ ' ' :: more)
      (result.append (' ' :: more)) := by
  have hescape : ∀ {e : Expr Symbol} {result}, e.rejects ' ' endsAtBlank = true →
      Runs grammar .token (.once e) cs result →
      Runs grammar .token (.once e) (cs ++ ' ' :: more) (result.append (' ' :: more)) :=
    fun he hrun => hrun.prolong rejects_space (by decide) he more
  have hplain : ∀ {result}, Runs grammar .token (.once (.char isPlain)) cs result →
      Runs grammar .token (.once (.char isPlain)) (cs ++ ' ' :: more)
        (result.append (' ' :: more)) := by
    intro result hrun
    cases hrun with
    | char hc => exact .char hc
    | char_failed hc =>
      obtain ⟨c, cs, rfl⟩ := List.exists_cons_of_ne_nil hcs
      exact .char_failed hc
  cases h with
  | choice_left h => exact .choice_left (hescape rfl h)
  | choice_right h h' =>
    refine .choice_right (hescape rfl h) ?_
    cases h' with
    | choice_left h => exact .choice_left (hescape rfl h)
    | choice_right h h' => exact .choice_right (hescape rfl h) (hplain h')

/-- The content of a string on one line is matched alike if the text goes on after it. -/
theorem prolong_lineContent {quote : Char} (hrest : rest ≠ [])
    (h : Runs grammar .token (.once (Terminal.lineContent quote)) cs (some (nodes, rest))) :
    Runs grammar .token (.once (Terminal.lineContent quote)) (cs ++ ' ' :: more)
      (some (nodes, rest ++ ' ' :: more)) :=
  h.prolong_star (by decide) (fun _ _ hcs hitem => prolong_escapeOr hcs hitem) hrest

/-- The content of a string over several lines is matched alike if the text goes on after it. -/
theorem prolong_longContent {quote : Char} (hquote : quote ≠ ' ') (hrest : rest ≠ [])
    (h : Runs grammar .token (.once (Terminal.longContent quote)) cs (some (nodes, rest))) :
    Runs grammar .token (.once (Terminal.longContent quote)) (cs ++ ' ' :: more)
      (some (nodes, rest ++ ' ' :: more)) := by
  refine h.prolong_star (by decide) (fun cs result hcs hitem => ?_) hrest
  have hclose : (Expr.notAhead (.seq (.text [quote, quote, quote])
      (.notAhead (.one quote))) : Expr Symbol).rejects ' ' endsAtBlank = true := by
    have hspace : (' ' == quote) = false := beq_eq_false_iff_ne.mpr hquote.symm
    simp [Expr.rejects, Expr.one, hquote, hspace]
  cases hitem with
  | seq hahead hchar =>
    have hlonger := hahead.prolong rejects_space (by decide) hclose more
    cases hahead with
    | notAhead _ => exact .seq hlonger (prolong_escapeOr hcs hchar)
  | seq_left hahead => exact .seq_left (hahead.prolong rejects_space (by decide) hclose more)
  | seq_right hahead hchar =>
    have hlonger := hahead.prolong rejects_space (by decide) hclose more
    cases hahead with
    | notAhead _ => exact .seq_right hlonger (prolong_escapeOr hcs hchar)

/-- A string is matched alike before a space if its content is where the text goes on. -/
theorem prolong_string {quotes : List Char} {content : Symbol} (hquotes : quotes ≠ [])
    (hspace : ' ' ∉ quotes) (hmanner : (grammar.production content).manner = .token)
    (hcontent : ∀ {cs nodes rest}, rest ≠ [] →
      Runs grammar .token (.once (grammar.production content).body) cs (some (nodes, rest)) →
      Runs grammar .token (.once (grammar.production content).body) (cs ++ ' ' :: more)
        (some (nodes, rest ++ ' ' :: more)))
    (h : Runs grammar .compound (.once (Terminal.string quotes content)) cs (some (nodes, rest))) :
    Runs grammar .compound (.once (Terminal.string quotes content)) (cs ++ ' ' :: more)
      (some (nodes, rest ++ ' ' :: more)) := by
  have htext : ∀ {cs result}, Runs grammar .compound (.once (.text quotes)) cs result →
      Runs grammar .compound (.once (.text quotes)) (cs ++ ' ' :: more)
        (result.append (' ' :: more)) := by
    refine fun hrun => hrun.prolong rejects_space (by decide) ?_ more
    exact List.all_eq_true.mpr fun q hq => bne_iff_ne.mpr fun heq => hspace (heq ▸ hq)
  cases h with
  | seq hopen hmore =>
    refine .seq (htext hopen) ?_
    cases hmore with
    | @seq _ _ _ _ mid _ _ _ hinner hclose =>
      refine .seq ?_ (htext hclose)
      have hmid : mid ≠ [] := by
        rintro rfl
        cases hclose with
        | text h =>
          obtain ⟨q, qs, rfl⟩ := List.exists_cons_of_ne_nil hquotes
          cases h
      cases hinner with
      | @rule _ _ _ taken _ _ hcs hbody =>
        have hlonger : ∀ {front : List Char}, front = taken ++ mid →
            front ++ ' ' :: more = taken ++ (mid ++ ' ' :: more) := by
          rintro _ rfl
          rw [List.append_assoc]
        refine .rule (hlonger hcs) ?_
        rw [hmanner] at hbody ⊢
        exact hcontent hmid hbody

/-- A string that is read is read alike before a space. -/
theorem prolong_quoted {t : Terminal}
    (ht : t ∈ [.longQuoted, .longSingleQuoted, .quoted, .singleQuoted])
    (h : Runs grammar .words (.once (.rule (.terminal t))) cs (some (nodes, rest))) :
    Runs grammar .words (.once (.rule (.terminal t))) (cs ++ ' ' :: more)
      (some (nodes, rest ++ ' ' :: more)) := by
  cases h with
  | rule hcs hbody =>
    refine .rule (by rw [hcs, List.append_assoc]) ?_
    simp only [List.mem_cons, List.not_mem_nil, or_false] at ht
    rcases ht with rfl | rfl | rfl | rfl
    · exact prolong_string (by decide) (by decide) rfl (prolong_longContent (by decide)) hbody
    · exact prolong_string (by decide) (by decide) rfl (prolong_longContent (by decide)) hbody
    · exact prolong_string (by decide) (by decide) rfl prolong_lineContent hbody
    · exact prolong_string (by decide) (by decide) rfl prolong_lineContent hbody

/-- The characters of a text come first where the text is read. -/
theorem eq_append_of_text {mode : Mode} {chars : List Char}
    (h : Runs grammar mode (.once (.text chars)) cs (some (nodes, rest))) : cs = chars ++ rest := by
  cases h with
  | text h =>
    induction chars generalizing cs with
    | nil =>
      cases h
      rfl
    | cons p chars ih =>
      cases cs with
      | nil => cases h
      | cons c cs =>
        rw [stripText?] at h
        split at h
        · rename_i hhead
          simp only [Bool.false_and, Bool.or_false, decide_eq_true_eq] at hhead
          rw [hhead, ih h, List.cons_append]
        · cases h

/-- A string that is read starts with its quotes. -/
theorem exists_of_string {quotes : List Char} {content : Symbol} {r : Symbol}
    (hr : grammar.production r = ⟨.compound, Terminal.string quotes content⟩)
    (h : Runs grammar .words (.once (.rule r)) cs (some (nodes, rest))) :
    ∃ more, cs = quotes ++ more := by
  cases h with
  | rule _ hbody =>
    rw [hr] at hbody
    cases hbody with
    | seq hopen _ => exact ⟨_, eq_append_of_text hopen⟩

/-- A string with one quote at each side ends at the second of three quotes. -/
theorem rest_of_empty {quote : Char} {content r : Symbol}
    (hr : grammar.production r = ⟨.compound, Terminal.string [quote] content⟩)
    (hcontent : grammar.production content = ⟨.token, Terminal.lineContent quote⟩)
    (hitem : ∀ cs, Refuses grammar .token
      (escapeOr fun c => !(c == quote || c == '\\' || c == '\r' || c == '\n')) (quote :: cs))
    (h : Runs grammar .words (.once (.rule r)) (quote :: quote :: quote :: cs)
      (some (nodes, rest))) : rest = quote :: cs := by
  cases h with
  | rule _ hbody =>
    rw [hr] at hbody
    cases hbody with
    | seq hopen hmore =>
      obtain rfl := List.cons.inj (eq_append_of_text hopen) |>.2
      cases hmore with
      | seq hinner hclose =>
        cases hinner with
        | rule _ hbody =>
          rw [hcontent] at hbody
          cases hbody with
          | star_stop _ => exact (List.cons.inj (eq_append_of_text hclose)).2.symm
          | star hfirst _ => exact absurd (hitem _) hfirst.reads.not_refuses

/-- Where a string between three quotes is not closed but one between single quotes is read, longer
texts do not matter, unless a quote comes next. -/
theorem prolong_unclosed {quote : Char} {short long longContent : Symbol}
    (hlong : grammar.production long =
      ⟨.compound, Terminal.string [quote, quote, quote] longContent⟩)
    (hquote : quote ≠ ' ')
    (hempty : ∀ {cs}, Runs grammar .words (.once (.rule short)) (quote :: quote :: quote :: cs)
      (some (nodes, rest)) → rest = quote :: cs)
    (h : Runs grammar .words (.once (.rule long)) cs none)
    (hshort : Runs grammar .words (.once (.rule short)) cs (some (nodes, rest)))
    (hrest : rest.head? ≠ some quote) :
    Runs grammar .words (.once (.rule long)) (cs ++ ' ' :: more) none := by
  cases h with
  | rule_failed h =>
    refine .rule_failed ?_
    rw [hlong] at h ⊢
    cases h with
    | seq_left hopen =>
      change Runs grammar .compound _ _ _ at hopen
      refine .seq_left (hopen.prolong rejects_space (by decide) ?_ more)
      simp [Task.expr, Expr.rejects, hquote]
    | seq_right hopen _ =>
      obtain rfl := eq_append_of_text hopen
      rw [hempty hshort] at hrest
      exact absurd rfl hrest

/-- A string without the given quotes at its start is refused. -/
theorem string_failed {quote : Char} {quotes : List Char} {content r : Symbol}
    (hr : grammar.production r = ⟨.compound, Terminal.string (quote :: quotes) content⟩)
    (h : cs.head? ≠ some quote) : Runs grammar .words (.once (.rule r)) cs none := by
  have hbody : Refuses grammar .compound (grammar.production r).body cs := by
    rw [hr]
    exact (refuses_text_of_head h).seq
  have hmanner : (grammar.production r).manner.bodyMode .words = .compound := by
    rw [hr]
    rfl
  rw [← hmanner] at hbody
  exact hbody.rule.runs

/-- A string in any form is read alike before a space, if no quote follows it. -/
theorem prolong_anyString
    (h : Runs grammar .words (.once (Terminal.anyString .terminal)) cs (some (nodes, rest)))
    (hdouble : rest.head? ≠ some '"') (hsingle : rest.head? ≠ some '\x27') :
    Runs grammar .words (.once (Terminal.anyString .terminal)) (cs ++ ' ' :: more)
      (some (nodes, rest ++ ' ' :: more)) := by
  have hemptyDouble : ∀ {cs}, Runs grammar .words (.once (.rule (.terminal .quoted)))
      ('"' :: '"' :: '"' :: cs) (some (nodes, rest)) → rest = '"' :: cs :=
    rest_of_empty rfl rfl fun _ => refuses_of_peek (starts_of_ne (by decide) _) 0 rfl
  have hemptySingle : ∀ {cs}, Runs grammar .words (.once (.rule (.terminal .singleQuoted)))
      ('\x27' :: '\x27' :: '\x27' :: cs) (some (nodes, rest)) → rest = '\x27' :: cs :=
    rest_of_empty rfl rfl fun _ => refuses_of_peek (starts_of_ne (by decide) _) 0 rfl
  cases h with
  | choice_left h => exact .choice_left (prolong_quoted (by decide) h)
  | choice_right hlong h =>
    cases h with
    | choice_left h =>
      obtain ⟨more', rfl⟩ := exists_of_string rfl h
      exact .choice_right (string_failed rfl nofun) (.choice_left (prolong_quoted (by decide) h))
    | choice_right hlongSingle h =>
      cases h with
      | choice_left h =>
        have hfailed : Runs _ _ _ (cs ++ ' ' :: more) _ :=
          prolong_unclosed rfl (by decide) hemptyDouble hlong h hdouble
        have hread : Runs _ _ _ (cs ++ ' ' :: more) _ := prolong_quoted (by decide) h
        obtain ⟨more', rfl⟩ := exists_of_string rfl h
        exact .choice_right hfailed (.choice_right (string_failed rfl nofun) (.choice_left hread))
      | choice_right hshort h =>
        have hfailed : Runs _ _ _ (cs ++ ' ' :: more) _ :=
          prolong_unclosed rfl (by decide) hemptySingle hlongSingle h hsingle
        have hread : Runs _ _ _ (cs ++ ' ' :: more) _ := prolong_quoted (by decide) h
        obtain ⟨more', rfl⟩ := exists_of_string rfl h
        exact .choice_right (string_failed rfl nofun) (.choice_right hfailed
          (.choice_right (string_failed rfl nofun) hread))

end Strings

/-! ## Literals -/

/-- What may follow the string of a literal. -/
def suffix : Expr Symbol :=
  .choice (.rule (.terminal .languageTag)) (.seq (.lit "^^") Symbol.iri)

/-- A language tag or a datatype that ends a text is read alike before a space. -/
theorem prolong_suffix {cs : List Char} {nodes : List (Outline Symbol)}
    (h : Runs grammar .words (.once suffix) cs (some (nodes, []))) (more : List Char) :
    Runs grammar .words (.once suffix) (cs ++ ' ' :: more) (some (nodes, ' ' :: more)) := by
  cases h with
  | choice_left h => exact .choice_left (prolongs_rule rfl cs _ more h)
  | choice_right hfailed h =>
    refine .choice_right (prolongs_rule rfl cs _ more hfailed) ?_
    cases h with
    | @seq _ _ _ _ mid _ _ _ hcarets hiri =>
      have hword : wordsOf mid ≠ [] := by
        intro hmid
        rw [← wordsOf, hmid] at hiri
        exact hiri.reads.not_refuses (refuses_end rfl)
      have hlonger : wordsOf (mid ++ ' ' :: more) = wordsOf mid ++ ' ' :: more :=
        wordsFrom_append hword _
      have hread := prolongs_iri _ _ more hiri
      rw [← wordsOf, ← hlonger] at hread
      cases hcarets with
      | text hstrip =>
        refine .seq (.text ?_) hread
        rw [stripText?_prolong (by simp), hstrip]
        rfl

/-- A whole literal is read before a space and any text of which the first word, if it is inside no
comment of the literal, is neither a language tag nor a datatype. -/
theorem leads_literal_of_runs {cs : List Char} {nodes : List (Outline Symbol)}
    (h : Runs grammar .words (.once (Terminal.literal .terminal)) cs (some (nodes, []))) :
    ∃ inComment, ∀ more, Refuses grammar .words suffix (wordsFrom inComment more) →
      Leads grammar (Terminal.literal .terminal) (cs ++ ' ' :: more) nodes
        (wordsFrom inComment more) := by
  cases h with
  | @seq _ _ _ _ mid _ _ _ hstring hrest =>
    change Runs grammar .words (.once (.opt suffix)) (wordsOf mid) _ at hrest
    -- a quote after the string would be part of no literal
    have hquote : ∀ c ∈ mid.head?, c ≠ '"' ∧ c ≠ '\x27' := by
      intro c hc
      obtain ⟨tail, rfl⟩ := List.head?_eq_some_iff.mp hc
      constructor <;>
      · rintro rfl
        rw [wordsOf_cons rfl] at hrest
        cases hrest with
        | choice_left h => exact h.reads.not_refuses (refuses_of_head rfl rfl _)
        | choice_right _ h => cases h
    have hlonger : ∀ more, Runs _ _ _ (cs ++ ' ' :: more) _ := fun _ =>
      prolong_anyString hstring (fun hc => (hquote _ hc).1 rfl) (fun hc => (hquote _ hc).2 rfl)
    cases hrest with
    | choice_left h =>
      have hword : wordsOf mid ≠ [] := by
        intro hmid
        rw [hmid] at h
        exact h.reads.not_refuses (refuses_end rfl)
      refine ⟨false, fun more _ => ?_⟩
      have hwords : wordsOf (mid ++ ' ' :: more) = wordsOf mid ++ ' ' :: more :=
        wordsFrom_append hword _
      have hsuffix := prolong_suffix h more
      rw [← hwords] at hsuffix
      exact (hlonger more).reads.seq hsuffix.reads.choice_left |>.leads (wordsFrom_space false more)
    | choice_right _ h =>
      generalize hmid : wordsOf mid = words at h
      cases h with
      | nothing =>
        obtain ⟨inComment, hblanks⟩ := exists_wordsFrom_append hmid
        refine ⟨inComment, fun more hmore => ?_⟩
        have hwords : wordsOf (mid ++ ' ' :: more) = wordsFrom inComment more :=
          (hblanks _).trans (wordsFrom_space inComment more)
        have hnothing := hmore.leads_opt (wordsOf_wordsFrom inComment more)
        rw [← hwords] at hnothing ⊢
        exact ((hlonger more).reads.leads rfl).seq hnothing

end RdfStore.Turtle
