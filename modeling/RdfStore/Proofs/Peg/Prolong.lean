import RdfStore.Proofs.Peg.Runs

/-!
# Longer texts

A run on a text is a run on any longer text if nothing that it looks for at the end of the text is
found there. This is so if the characters after the end start with one that no part of the
expression takes, also where it looks ahead, and where a repetition ends before the text does.
-/

set_option autoImplicit false

namespace RdfStore.Peg

open RdfStore.Text

variable {R : Type}

/-- What a run ends with if more characters follow. -/
def Result.append (result : Result R) (more : List Char) : Result R :=
  result.map fun r => (r.1, r.2 ++ more)

/-- No part of an expression takes a character, given the rules of which that is known. -/
def Expr.rejects (c : Char) (rejecting : R → Bool) : Expr R → Bool
  | .nothing => true
  | .char isMember => !isMember c
  | .text chars => chars.all (· != c)
  | .word chars => chars.all fun p => asciiLower p != asciiLower c
  | .rule r => rejecting r
  | .seq first second | .choice first second =>
    first.rejects c rejecting && second.rejects c rejecting
  | .star item | .notAhead item | .ahead item => item.rejects c rejecting

/-- The bodies of some rules do not take a character. -/
def Grammar.Rejects (g : Grammar R) (c : Char) (rejecting : R → Bool) : Prop :=
  ∀ r, rejecting r = true → (g.production r).body.rejects c rejecting = true

/-- Characters that do not have the next one are found or missed before it. -/
theorem stripText?_prolong {ignoreCase : Bool} {chars : List Char} {c : Char}
    (h : ∀ p ∈ chars, p ≠ c ∧ (ignoreCase = true → asciiLower p ≠ asciiLower c))
    (cs more : List Char) :
    stripText? ignoreCase chars (cs ++ c :: more) =
      (stripText? ignoreCase chars cs).map (· ++ c :: more) := by
  induction chars generalizing cs with
  | nil => rfl
  | cons p chars ih =>
    have hmore := ih fun q hq => h q (List.mem_cons_of_mem p hq)
    cases cs with
    | nil =>
      obtain ⟨hne, hcase⟩ := h p List.mem_cons_self
      refine if_neg ?_
      simp only [Bool.or_eq_true, decide_eq_true_eq, Bool.and_eq_true, beq_iff_eq, not_or, not_and]
      exact ⟨hne, hcase⟩
    | cons d cs =>
      rw [List.cons_append, stripText?, stripText?]
      split
      · exact hmore cs
      · rfl

section Prolong

variable {g : Grammar R} {c : Char} {rejecting : R → Bool} {mode : Mode} {task : Task R}
  {cs : List Char} {result : Result R}

/-- No characters of a text are the one that it rejects. -/
theorem ne_of_rejects_text {chars : List Char}
    (h : (Expr.text chars : Expr R).rejects c rejecting = true) :
    ∀ p ∈ chars, p ≠ c ∧ (false = true → asciiLower p ≠ asciiLower c) := by
  intro p hp
  have hne := List.all_eq_true.mp h p hp
  exact ⟨bne_iff_ne.mp hne, nofun⟩

/-- No characters of a word are the one that it rejects, in either case. -/
theorem ne_of_rejects_word {chars : List Char}
    (h : (Expr.word chars : Expr R).rejects c rejecting = true) :
    ∀ p ∈ chars, p ≠ c ∧ (true = true → asciiLower p ≠ asciiLower c) := by
  intro p hp
  have hne : asciiLower p ≠ asciiLower c := bne_iff_ne.mp (List.all_eq_true.mp h p hp)
  exact ⟨fun heq => hne (congrArg asciiLower heq), fun _ => hne⟩

/-- A run without blanks is a run before a character that no part of the expression takes. -/
theorem Runs.prolong (hg : g.Rejects c rejecting) (hmode : mode ≠ .words)
    (h : Runs g mode task cs result) (htask : task.expr.rejects c rejecting = true)
    (more : List Char) : Runs g mode task (cs ++ c :: more) (result.append (c :: more)) := by
  induction h with
  | nothing => exact .nothing
  | char h => exact .char h
  | @char_failed mode isMember cs h =>
    refine .char_failed fun d hd => ?_
    cases cs with
    | nil =>
      -- where the text ended now stands `c`, which the class does not take either
      cases hd
      exact Bool.not_eq_eq_eq_not.mp htask
    | cons e cs => exact h d hd
  | @text mode chars cs rest h =>
    refine .text ?_
    rw [stripText?_prolong (ne_of_rejects_text htask), h]
    rfl
  | @text_failed mode chars cs h =>
    refine .text_failed ?_
    rw [stripText?_prolong (ne_of_rejects_text htask), h]
    rfl
  | @word mode chars cs rest h =>
    refine .word ?_
    rw [stripText?_prolong (ne_of_rejects_word htask), h]
    rfl
  | @word_failed mode chars cs h =>
    refine .word_failed ?_
    rw [stripText?_prolong (ne_of_rejects_word htask), h]
    rfl
  | @rule mode r cs taken rest nodes hcs _ ih =>
    refine .rule ?_ (ih (bodyMode_ne_words (Or.inl hmode)) (hg r htask))
    rw [hcs, List.append_assoc]
  | @rule_failed mode r cs _ ih =>
    exact .rule_failed (ih (bodyMode_ne_words (Or.inl hmode)) (hg r htask))
  | seq _ _ ih ih' =>
    obtain ⟨hfirst, hsecond⟩ := Bool.and_eq_true_iff.mp htask
    have hmore := ih' hmode hsecond
    rw [Grammar.skip_of_ne hmode] at hmore
    refine .seq (ih hmode hfirst) ?_
    rw [Grammar.skip_of_ne hmode]
    exact hmore
  | seq_left _ ih => exact .seq_left (ih hmode (Bool.and_eq_true_iff.mp htask).1)
  | seq_right _ _ ih ih' =>
    obtain ⟨hfirst, hsecond⟩ := Bool.and_eq_true_iff.mp htask
    have hmore := ih' hmode hsecond
    rw [Grammar.skip_of_ne hmode] at hmore
    refine .seq_right (ih hmode hfirst) ?_
    rw [Grammar.skip_of_ne hmode]
    exact hmore
  | choice_left _ ih => exact .choice_left (ih hmode (Bool.and_eq_true_iff.mp htask).1)
  | choice_right _ _ ih ih' =>
    obtain ⟨hfirst, hsecond⟩ := Bool.and_eq_true_iff.mp htask
    exact .choice_right (ih hmode hfirst) (ih' hmode hsecond)
  | star_stop _ ih => exact .star_stop (ih hmode htask)
  | star _ _ ih ih' => exact .star (ih hmode htask) (ih' hmode htask)
  | again_stop _ ih =>
    have hitem := ih hmode htask
    rw [Grammar.skip_of_ne hmode] at hitem
    refine .again_stop ?_
    rw [Grammar.skip_of_ne hmode]
    exact hitem
  | again _ _ ih ih' =>
    have hitem := ih hmode htask
    rw [Grammar.skip_of_ne hmode] at hitem
    refine .again ?_ (ih' hmode htask)
    rw [Grammar.skip_of_ne hmode]
    exact hitem
  | notAhead _ ih => exact .notAhead (ih hmode htask)
  | notAhead_failed _ ih => exact .notAhead_failed (ih hmode htask)
  | ahead _ ih => exact .ahead (ih hmode htask)
  | ahead_failed _ ih => exact .ahead_failed (ih hmode htask)

/-- A run of a rule without blanks is a run before a character that its body does not take,
wherever the rule is called. -/
theorem Runs.prolong_rule (hg : g.Rejects c rejecting) {r : R}
    (hmode : (g.production r).manner.bodyMode mode ≠ .words) (hr : rejecting r = true)
    (h : Runs g mode (.once (.rule r)) cs result) (more : List Char) :
    Runs g mode (.once (.rule r)) (cs ++ c :: more) (result.append (c :: more)) := by
  cases h with
  | rule hcs h =>
    refine .rule ?_ (h.prolong hg hmode (hg r hr) more)
    rw [hcs, List.append_assoc]
  | rule_failed h => exact .rule_failed (h.prolong hg hmode (hg r hr) more)

end Prolong

/-! ## Repetitions that end before the text does -/

section Star

variable {g : Grammar R} [g.HasBlanks] {mode : Mode} {item : Expr R} {cs rest more : List Char}
  {nodes : List (Outline R)}

/-- If an item is matched alike in a longer text, so is its repetition until the text ends. -/
theorem Runs.prolong_again (hmode : mode ≠ .words)
    (hitem : ∀ cs result, cs ≠ [] → Runs g mode (.once item) cs result →
      Runs g mode (.once item) (cs ++ more) (result.append more))
    (h : Runs g mode (.again item) cs (some (nodes, rest))) (hrest : rest ≠ []) :
    Runs g mode (.again item) (cs ++ more) (some (nodes, rest ++ more)) := by
  generalize htask : Task.again item = task at h
  generalize hresult : some (nodes, rest) = result at h
  induction h generalizing nodes rest with
  | again_stop h =>
    cases htask
    cases hresult
    rw [Grammar.skip_of_ne hmode] at h
    refine .again_stop ?_
    rw [Grammar.skip_of_ne hmode]
    exact hitem _ _ hrest h
  | again h h' _ ih =>
    cases htask
    cases hresult
    rw [Grammar.skip_of_ne hmode] at h
    refine .again ?_ (ih hmode hitem hrest rfl rfl)
    rw [Grammar.skip_of_ne hmode]
    obtain ⟨_, rfl, -⟩ := h.reads
    obtain ⟨_, rfl, -⟩ := h'.holds
    refine hitem _ _ ?_ h
    simp [hrest]
  | _ => cases htask

/-- A repetition that ends before the text does is matched alike in a longer text. -/
theorem Runs.prolong_star (hmode : mode ≠ .words)
    (hitem : ∀ cs result, cs ≠ [] → Runs g mode (.once item) cs result →
      Runs g mode (.once item) (cs ++ more) (result.append more))
    (h : Runs g mode (.once (.star item)) cs (some (nodes, rest))) (hrest : rest ≠ []) :
    Runs g mode (.once (.star item)) (cs ++ more) (some (nodes, rest ++ more)) := by
  cases h with
  | star_stop h => exact .star_stop (hitem _ _ hrest h)
  | star h h' =>
    refine .star (hitem _ _ ?_ h) (h'.prolong_again hmode hitem hrest)
    obtain ⟨_, rfl, -⟩ := h.reads
    obtain ⟨_, rfl, -⟩ := h'.holds
    simp [hrest]

end Star

end RdfStore.Peg
