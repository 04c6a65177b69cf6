import RdfStore.Proofs.Peg.Bound

/-!
# What expressions read

`Reads` and `Refuses` say how matching ends with any bound of the work that is high enough,
wherever in a document the text stands. There is one rule for each way in which expressions
are put together. A node is described by its outline, which has no place, and no text if the
rule is made of words, since blanks at its end may or may not belong to it. In a guarded
grammar the bound that `Grammar.parse` sets is high enough, so what is read is parsed.
-/

set_option autoImplicit false

namespace RdfStore.Peg

variable {R : Type}

/-! ## Outlines -/

/-- A node without its place, and without its text if its rule is made of words. -/
inductive Outline (R : Type) where
  | node (rule : R) (text : List Char) (children : List (Outline R))

namespace Grammar

/-- The text of a node that its outline keeps. -/
def outlineText (g : Grammar R) (r : R) (text : List Char) : List Char :=
  if (g.production r).manner = .words then [] else text

mutual

/-- The outline of a node. -/
def outline (g : Grammar R) : ParseTree R → Outline R
  | .node r _ text children => .node r (g.outlineText r text) (g.outlines children)

/-- The outlines of nodes. -/
def outlines (g : Grammar R) : List (ParseTree R) → List (Outline R)
  | [] => []
  | tree :: trees => g.outline tree :: g.outlines trees

end

/-- The outlines of nodes in a row are those of each part. -/
theorem outlines_append (g : Grammar R) (trees more : List (ParseTree R)) :
    g.outlines (trees ++ more) = g.outlines trees ++ g.outlines more := by
  induction trees with
  | nil => rfl
  | cons tree rest ih => rw [List.cons_append, outlines, outlines, ih, List.cons_append]

/-- A node with a given outline. -/
theorem eq_of_outline {g : Grammar R} {tree : ParseTree R} {r : R} {text : List Char}
    {children : List (Outline R)} (h : g.outline tree = .node r text children) :
    ∃ start written trees, tree = .node r start written trees ∧ g.outlines trees = children ∧
      g.outlineText r written = text := by
  obtain ⟨r', start, written, trees⟩ := tree
  rw [outline] at h
  injection h with hr htext hchildren
  subst hr
  exact ⟨start, written, trees, rfl, hchildren, htext⟩

/-- Nodes of which the outlines start with a given one. -/
theorem eq_cons_of_outlines {g : Grammar R} {trees : List (ParseTree R)} {o : Outline R}
    {os : List (Outline R)} (h : g.outlines trees = o :: os) :
    ∃ tree rest, trees = tree :: rest ∧ g.outline tree = o ∧ g.outlines rest = os := by
  cases trees with
  | nil => cases h
  | cons tree rest =>
    rw [outlines] at h
    injection h with htree hrest
    exact ⟨tree, rest, rfl, htree, hrest⟩

/-- No nodes have no outlines. -/
theorem eq_nil_of_outlines {g : Grammar R} {trees : List (ParseTree R)}
    (h : g.outlines trees = []) : trees = [] := by
  cases trees with
  | nil => rfl
  | cons tree rest => cases h

/-- A node with a given outline and nothing else. -/
theorem eq_singleton_of_outlines {g : Grammar R} {trees : List (ParseTree R)} {o : Outline R}
    (h : g.outlines trees = [o]) : ∃ tree, trees = [tree] ∧ g.outline tree = o := by
  obtain ⟨tree, rest, rfl, htree, hrest⟩ := eq_cons_of_outlines h
  rw [eq_nil_of_outlines hrest]
  exact ⟨tree, rfl, htree⟩

/-- The text after the blanks at its start, where they are allowed. -/
def skip (g : Grammar R) (mode : Mode) (cs : List Char) : List Char :=
  match mode with
  | .words => cs.drop (g.blanks cs)
  | _ => cs

/-- Between the parts of a token nothing is skipped. -/
theorem skip_of_ne {g : Grammar R} {mode : Mode} (h : mode ≠ .words) (cs : List Char) :
    g.skip mode cs = cs := by
  cases mode with
  | words => exact absurd rfl h
  | token | compound => rfl

/-- The blanks of a grammar are characters of the text. -/
class HasBlanks (g : Grammar R) : Prop where
  blanks_le : ∀ cs, g.blanks cs ≤ cs.length

end Grammar

/-! ## Ends -/

/-- How matching an expression ends with every bound that is high enough. -/
def Ends (g : Grammar R) (mode : Mode) (e : Expr R) (s : State) (o : Outcome R) : Prop :=
  ∃ least, ∀ fuel, least ≤ fuel → matchExpr g (matchRule g fuel) fuel mode e s = o

/-- How repeating an expression, with blanks before it, ends with bounds that are high enough. -/
def EndsRepeat (g : Grammar R) (mode : Mode) (item : Expr R) (s : State) (o : Outcome R) : Prop :=
  ∃ least, ∀ fuel count, least ≤ fuel → least ≤ count →
    repeatStep (fun s => matchExpr g (matchRule g fuel) fuel mode item (skipBlanks g mode s))
      count s = o

section Ends

variable {g : Grammar R} {mode : Mode} {first second item : Expr R} {s s₁ s₂ : State}
  {nodes more : List (ParseTree R)} {blame : Nat} {o : Outcome R}

/-- What does not depend on the bound is the end. -/
theorem ends_of_eq {e : Expr R}
    (h : ∀ fuel, matchExpr g (matchRule g fuel) fuel mode e s = o) : Ends g mode e s o :=
  ⟨0, fun fuel _ => h fuel⟩

/-- The second part goes on after the first and the blanks after it. -/
theorem Ends.seq (h : Ends g mode first s (.matched nodes s₁))
    (h' : Ends g mode second (skipBlanks g mode s₁) (.matched more s₂)) :
    Ends g mode (.seq first second) s (.matched (nodes ++ more) s₂) := by
  obtain ⟨n, hn⟩ := h
  obtain ⟨m, hm⟩ := h'
  refine ⟨max n m, fun fuel hfuel => ?_⟩
  rw [matchExpr, hn fuel (by omega)]
  dsimp only
  rw [hm fuel (by omega)]

/-- Where the first part fails, both do. -/
theorem Ends.seq_left (h : Ends g mode first s (.failed blame)) :
    Ends g mode (.seq first second) s (.failed blame) := by
  obtain ⟨n, hn⟩ := h
  refine ⟨n, fun fuel hfuel => ?_⟩
  rw [matchExpr, hn fuel hfuel]

/-- Where the second part fails, both do. -/
theorem Ends.seq_right (h : Ends g mode first s (.matched nodes s₁))
    (h' : Ends g mode second (skipBlanks g mode s₁) (.failed blame)) :
    Ends g mode (.seq first second) s (.failed blame) := by
  obtain ⟨n, hn⟩ := h
  obtain ⟨m, hm⟩ := h'
  refine ⟨max n m, fun fuel hfuel => ?_⟩
  rw [matchExpr, hn fuel (by omega)]
  dsimp only
  rw [hm fuel (by omega)]

/-- A choice takes its first expression where it matches. -/
theorem Ends.choice_left (h : Ends g mode first s (.matched nodes s₁)) :
    Ends g mode (.choice first second) s (.matched nodes s₁) := by
  obtain ⟨n, hn⟩ := h
  refine ⟨n, fun fuel hfuel => ?_⟩
  rw [matchExpr, hn fuel hfuel]

/-- A choice is its second expression where the first fails. -/
theorem Ends.choice_right (h : Ends g mode first s (.failed blame))
    (h' : Ends g mode second { s with blame := blame } o) :
    Ends g mode (.choice first second) s o := by
  obtain ⟨n, hn⟩ := h
  obtain ⟨m, hm⟩ := h'
  refine ⟨max n m, fun fuel hfuel => ?_⟩
  rw [matchExpr, hn fuel (by omega)]
  exact hm fuel (by omega)

/-- Repetition stops where the expression fails. -/
theorem Ends.repeat_stop (h : Ends g mode item (skipBlanks g mode s) (.failed blame)) :
    EndsRepeat g mode item s (.matched [] { s with blame := blame }) := by
  obtain ⟨n, hn⟩ := h
  refine ⟨n + 1, fun fuel count hfuel hcount => ?_⟩
  obtain ⟨count, rfl⟩ : ∃ k, count = k + 1 := ⟨count - 1, by omega⟩
  rw [repeatStep, hn fuel (by omega)]

/-- Repetition goes on after a match. -/
theorem Ends.repeat_more (h : Ends g mode item (skipBlanks g mode s) (.matched nodes s₁))
    (h' : EndsRepeat g mode item s₁ (.matched more s₂)) :
    EndsRepeat g mode item s (.matched (nodes ++ more) s₂) := by
  obtain ⟨n, hn⟩ := h
  obtain ⟨m, hm⟩ := h'
  refine ⟨max n m + 1, fun fuel count hfuel hcount => ?_⟩
  obtain ⟨count, rfl⟩ : ∃ k, count = k + 1 := ⟨count - 1, by omega⟩
  rw [repeatStep, hn fuel (by omega)]
  dsimp only
  rw [hm fuel count (by omega) (by omega)]

/-- A star is empty where its item fails. -/
theorem Ends.star_stop (h : Ends g mode item s (.failed blame)) :
    Ends g mode (.star item) s (.matched [] { s with blame := blame }) := by
  obtain ⟨n, hn⟩ := h
  refine ⟨n, fun fuel hfuel => ?_⟩
  rw [matchExpr, hn fuel hfuel]

/-- A star goes on after a first match. -/
theorem Ends.star_more (h : Ends g mode item s (.matched nodes s₁))
    (h' : EndsRepeat g mode item s₁ (.matched more s₂)) :
    Ends g mode (.star item) s (.matched (nodes ++ more) s₂) := by
  obtain ⟨n, hn⟩ := h
  obtain ⟨m, hm⟩ := h'
  refine ⟨max n m, fun fuel hfuel => ?_⟩
  rw [matchExpr, hn fuel (by omega)]
  dsimp only
  rw [hm fuel fuel (by omega) (by omega)]

/-- A star is a repetition, apart from blanks before it. -/
theorem EndsRepeat.star (h : EndsRepeat g mode item s o) (hs : skipBlanks g mode s = s) :
    Ends g mode (.star item) s o := by
  obtain ⟨n, hn⟩ := h
  refine ⟨n, fun fuel hfuel => ?_⟩
  have hstep := hn fuel (fuel + 1) hfuel (by omega)
  rw [repeatStep, hs] at hstep
  rw [matchExpr]
  exact hstep

/-- Looking ahead for what fails succeeds and stays. -/
theorem Ends.notAhead (h : Ends g mode item s (.failed blame)) :
    Ends g mode (.notAhead item) s (.matched [] s) := by
  obtain ⟨n, hn⟩ := h
  refine ⟨n, fun fuel hfuel => ?_⟩
  rw [matchExpr, hn fuel hfuel]

/-- Looking ahead for what should not be there fails where it is. -/
theorem Ends.notAhead_failed (h : Ends g mode item s (.matched nodes s₁)) :
    Ends g mode (.notAhead item) s (.failed s.blame) := by
  obtain ⟨n, hn⟩ := h
  refine ⟨n, fun fuel hfuel => ?_⟩
  rw [matchExpr, hn fuel hfuel]

/-- Looking ahead for what matches succeeds and stays. -/
theorem Ends.ahead (h : Ends g mode item s (.matched nodes s₁)) :
    Ends g mode (.ahead item) s (.matched [] s) := by
  obtain ⟨n, hn⟩ := h
  refine ⟨n, fun fuel hfuel => ?_⟩
  rw [matchExpr, hn fuel hfuel]

/-- Looking ahead for what fails fails. -/
theorem Ends.ahead_failed (h : Ends g mode item s (.failed blame)) :
    Ends g mode (.ahead item) s (.failed s.blame) := by
  obtain ⟨n, hn⟩ := h
  refine ⟨n, fun fuel hfuel => ?_⟩
  rw [matchExpr, hn fuel hfuel]

variable {r : R}

/-- A visible rule leaves a node around those of its body. -/
theorem Ends.rule (hvisible : (g.production r).manner.isVisible mode = true)
    (h : Ends g ((g.production r).manner.bodyMode mode) (g.production r).body s
      (.matched nodes s₁)) :
    Ends g mode (.rule r) s
      (.matched [.node r s.index (s.rest.take (s₁.index - s.index)) nodes] s₁) := by
  obtain ⟨n, hn⟩ := h
  refine ⟨n + 1, fun fuel hfuel => ?_⟩
  obtain ⟨fuel, rfl⟩ : ∃ k, fuel = k + 1 := ⟨fuel - 1, by omega⟩
  rw [matchExpr, matchRule, hn fuel (by omega)]
  exact if_pos hvisible

/-- A hidden rule leaves the nodes of its body. -/
theorem Ends.rule_hidden (hvisible : (g.production r).manner.isVisible mode = false)
    (h : Ends g ((g.production r).manner.bodyMode mode) (g.production r).body s
      (.matched nodes s₁)) : Ends g mode (.rule r) s (.matched nodes s₁) := by
  obtain ⟨n, hn⟩ := h
  refine ⟨n + 1, fun fuel hfuel => ?_⟩
  obtain ⟨fuel, rfl⟩ : ∃ k, fuel = k + 1 := ⟨fuel - 1, by omega⟩
  rw [matchExpr, matchRule, hn fuel (by omega)]
  exact if_neg (by rw [hvisible]; exact Bool.false_ne_true)

/-- A rule fails where its body does. -/
theorem Ends.rule_failed (h : Ends g ((g.production r).manner.bodyMode mode)
    (g.production r).body s (.failed blame)) :
    Ends g mode (.rule r) s
      (.failed (if (g.production r).manner.isVisible mode then max blame s.index else blame)) := by
  obtain ⟨n, hn⟩ := h
  refine ⟨n + 1, fun fuel hfuel => ?_⟩
  obtain ⟨fuel, rfl⟩ : ∃ k, fuel = k + 1 := ⟨fuel - 1, by omega⟩
  rw [matchExpr, matchRule, hn fuel (by omega)]

end Ends

/-! ## Reading -/

/-- At the start of a text an expression matches all but a rest and leaves nodes with the given
outlines, wherever the text stands. -/
def Reads (g : Grammar R) (mode : Mode) (e : Expr R) (cs : List Char) (nodes : List (Outline R))
    (rest : List Char) : Prop :=
  ∃ taken, cs = taken ++ rest ∧ ∀ index blame, ∃ trees blame', g.outlines trees = nodes ∧
    Ends g mode e ⟨cs, index, blame⟩ (.matched trees ⟨rest, index + taken.length, blame'⟩)

/-- The same for an expression that is repeated, with blanks before it. -/
def Repeats (g : Grammar R) (mode : Mode) (item : Expr R) (cs : List Char)
    (nodes : List (Outline R)) (rest : List Char) : Prop :=
  ∃ taken, cs = taken ++ rest ∧ ∀ index blame, ∃ trees blame', g.outlines trees = nodes ∧
    EndsRepeat g mode item ⟨cs, index, blame⟩
      (.matched trees ⟨rest, index + taken.length, blame'⟩)

/-- At the start of a text an expression fails, wherever the text stands. -/
def Refuses (g : Grammar R) (mode : Mode) (e : Expr R) (cs : List Char) : Prop :=
  ∀ index blame, ∃ blame', Ends g mode e ⟨cs, index, blame⟩ (.failed blame')

section Reads

variable {g : Grammar R} {mode : Mode} {first second item : Expr R} {cs mid rest : List Char}
  {nodes more : List (Outline R)}

/-- Skipping blanks goes to the text after them. -/
theorem skipBlanks_eq [g.HasBlanks] (mode : Mode) (cs : List Char) :
    ∃ taken, cs = taken ++ g.skip mode cs ∧ ∀ index blame,
      skipBlanks g mode ⟨cs, index, blame⟩ = ⟨g.skip mode cs, index + taken.length, blame⟩ := by
  cases mode with
  | words =>
    refine ⟨cs.take (g.blanks cs), (List.take_append_drop _ cs).symm, fun index blame => ?_⟩
    rw [List.length_take, Nat.min_eq_left (Grammar.HasBlanks.blanks_le cs)]
    unfold skipBlanks State.skip Grammar.skip
    dsimp only
    split
    · rename_i hzero
      rw [hzero, List.drop_zero, Nat.add_zero]
    · rfl
  | token | compound => exact ⟨[], rfl, fun _ _ => rfl⟩

/-- Nothing is read anywhere. -/
theorem reads_nothing (cs : List Char) : Reads g mode .nothing cs [] cs :=
  ⟨[], rfl, fun _ blame => ⟨[], blame, rfl, ends_of_eq fun _ => rfl⟩⟩

/-- A character of the class is read. -/
theorem reads_char {isMember : Char → Bool} {c : Char} (h : isMember c = true)
    (rest : List Char) : Reads g mode (.char isMember) (c :: rest) [] rest := by
  refine ⟨[c], rfl, fun _ blame => ⟨[], blame, rfl, ends_of_eq fun fuel => ?_⟩⟩
  rw [matchExpr]
  dsimp only
  rw [if_pos h]
  rfl

/-- Any other character is refused. -/
theorem refuses_char {isMember : Char → Bool} {c : Char} (h : isMember c = false)
    (rest : List Char) : Refuses g mode (.char isMember) (c :: rest) := by
  refine fun _ blame => ⟨blame, ends_of_eq fun fuel => ?_⟩
  rw [matchExpr]
  dsimp only
  rw [if_neg (by rw [h]; exact Bool.false_ne_true)]

/-- A given character is read. -/
theorem reads_one (c : Char) (rest : List Char) : Reads g mode (.one c) (c :: rest) [] rest := by
  refine reads_char ?_ rest
  exact beq_self_eq_true c

/-- A character other than the given one is refused. -/
theorem refuses_one {c d : Char} (h : c ≠ d) (rest : List Char) :
    Refuses g mode (.one d) (c :: rest) := by
  refine refuses_char ?_ rest
  exact beq_eq_false_iff_ne.mpr h

/-- A text that does not start with the given character is refused. -/
theorem refuses_one_of_head {c : Char} (h : cs.head? ≠ some c) : Refuses g mode (.one c) cs := by
  cases cs with
  | nil => exact fun _ blame => ⟨blame, ends_of_eq fun _ => rfl⟩
  | cons d rest => exact refuses_one (fun heq => h (congrArg some heq)) rest

/-- A text starts with itself. -/
theorem stripText?_append (ignoreCase : Bool) (chars rest : List Char) :
    stripText? ignoreCase chars (chars ++ rest) = some rest := by
  induction chars with
  | nil => rfl
  | cons c chars ih =>
    rw [List.cons_append, stripText?, if_pos (by rw [decide_eq_true rfl, Bool.true_or]), ih]

/-- Given characters are read. -/
theorem reads_text (chars rest : List Char) :
    Reads g mode (.text chars) (chars ++ rest) [] rest := by
  refine ⟨chars, rfl, fun _ blame => ⟨[], blame, rfl, ends_of_eq fun fuel => ?_⟩⟩
  rw [matchExpr]
  dsimp only
  rw [stripText?_append]

/-- Other characters are refused. -/
theorem refuses_text {chars cs : List Char} (h : stripText? false chars cs = none) :
    Refuses g mode (.text chars) cs := by
  refine fun _ blame => ⟨blame, ends_of_eq fun fuel => ?_⟩
  rw [matchExpr]
  dsimp only
  rw [h]

/-- A text that starts with another character is refused. -/
theorem refuses_text_of_head {c : Char} {chars cs : List Char} (h : cs.head? ≠ some c) :
    Refuses g mode (.text (c :: chars)) cs := by
  refine refuses_text ?_
  cases cs with
  | nil => rfl
  | cons d rest =>
    rw [stripText?, Bool.false_and, Bool.or_false]
    exact if_neg fun hc => h (congrArg some (of_decide_eq_true hc).symm)

/-- A word is stripped off the texts that start with it up to case. -/
theorem stripText?_word (chars cs : List Char) :
    stripText? true chars cs =
      if Text.equalIgnoringCase (cs.take chars.length) chars then some (cs.drop chars.length)
      else none := by
  induction chars generalizing cs with
  | nil => rfl
  | cons p chars ih =>
    cases cs with
    | nil => rfl
    | cons c cs =>
      have hcondition : (decide (p = c) || (true && Text.asciiLower p == Text.asciiLower c)) =
          (Text.asciiLower c == Text.asciiLower p) := by
        rw [Bool.true_and, Bool.eq_iff_iff, Bool.or_eq_true, decide_eq_true_iff, beq_iff_eq,
          beq_iff_eq]
        exact ⟨fun h => h.elim (fun heq => by rw [heq]) Eq.symm, fun h => Or.inr h.symm⟩
      have hequal : Text.equalIgnoringCase ((c :: cs).take (chars.length + 1)) (p :: chars) =
          (Text.asciiLower c == Text.asciiLower p &&
            Text.equalIgnoringCase (cs.take chars.length) chars) := rfl
      rw [stripText?, hcondition, ih, List.length_cons, hequal, List.drop_succ_cons]
      cases Text.asciiLower c == Text.asciiLower p <;> rfl

/-- A word in either case is read. -/
theorem reads_word {chars taken : List Char} (h : Text.equalIgnoringCase taken chars = true)
    (rest : List Char) : Reads g mode (.word chars) (taken ++ rest) [] rest := by
  have hlength : taken.length = chars.length := by
    simpa using congrArg List.length (eq_of_beq h)
  have hstrip : stripText? true chars (taken ++ rest) = some rest := by
    rw [stripText?_word, ← hlength, List.take_left, List.drop_left, if_pos h]
  refine ⟨taken, rfl, fun _ blame => ⟨[], blame, rfl, ends_of_eq fun fuel => ?_⟩⟩
  rw [matchExpr]
  dsimp only
  rw [hstrip, hlength]

/-- Another word is refused. -/
theorem refuses_word {chars cs : List Char} (h : stripText? true chars cs = none) :
    Refuses g mode (.word chars) cs := by
  refine fun _ blame => ⟨blame, ends_of_eq fun fuel => ?_⟩
  rw [matchExpr]
  dsimp only
  rw [h]

/-- One expression is read and then, after blanks, the other. -/
theorem Reads.seq [g.HasBlanks] (h : Reads g mode first cs nodes mid)
    (h' : Reads g mode second (g.skip mode mid) more rest) :
    Reads g mode (.seq first second) cs (nodes ++ more) rest := by
  obtain ⟨taken, rfl, hfirst⟩ := h
  obtain ⟨blanks, hmid, hskip⟩ := skipBlanks_eq (g := g) mode mid
  obtain ⟨taken', htaken, hsecond⟩ := h'
  refine ⟨taken ++ (blanks ++ taken'), ?_, fun index blame => ?_⟩
  · rw [List.append_assoc, List.append_assoc, ← htaken, ← hmid]
  · obtain ⟨trees, b, rfl, hends⟩ := hfirst index blame
    obtain ⟨trees', b', rfl, hends'⟩ := hsecond (index + taken.length + blanks.length) b
    refine ⟨trees ++ trees', b', g.outlines_append trees trees', ?_⟩
    rw [List.length_append, List.length_append, ← Nat.add_assoc, ← Nat.add_assoc]
    refine hends.seq ?_
    rw [hskip]
    exact hends'

/-- Both are refused where the first is. -/
theorem Refuses.seq (h : Refuses g mode first cs) : Refuses g mode (.seq first second) cs :=
  fun index blame => (h index blame).imp fun _ hends => hends.seq_left

/-- Both are refused where the second is refused after the first. -/
theorem Reads.seq_refuses [g.HasBlanks] (h : Reads g mode first cs nodes mid)
    (h' : Refuses g mode second (g.skip mode mid)) : Refuses g mode (.seq first second) cs := by
  obtain ⟨taken, rfl, hfirst⟩ := h
  obtain ⟨blanks, -, hskip⟩ := skipBlanks_eq (g := g) mode mid
  intro index blame
  obtain ⟨trees, b, -, hends⟩ := hfirst index blame
  obtain ⟨b', hends'⟩ := h' (index + taken.length + blanks.length) b
  refine ⟨b', hends.seq_right ?_⟩
  rw [hskip]
  exact hends'

/-- A choice reads what its first expression reads. -/
theorem Reads.choice_left (h : Reads g mode first cs nodes rest) :
    Reads g mode (.choice first second) cs nodes rest := by
  obtain ⟨taken, hcs, h⟩ := h
  refine ⟨taken, hcs, fun index blame => ?_⟩
  obtain ⟨trees, b, htrees, hends⟩ := h index blame
  exact ⟨trees, b, htrees, hends.choice_left⟩

/-- A choice reads what its second expression reads where the first refuses. -/
theorem Reads.choice_right (h : Refuses g mode first cs)
    (h' : Reads g mode second cs nodes rest) :
    Reads g mode (.choice first second) cs nodes rest := by
  obtain ⟨taken, hcs, h'⟩ := h'
  refine ⟨taken, hcs, fun index blame => ?_⟩
  obtain ⟨b, hends⟩ := h index blame
  obtain ⟨trees, b', htrees, hends'⟩ := h' index b
  exact ⟨trees, b', htrees, hends.choice_right hends'⟩

/-- A choice refuses where both expressions do. -/
theorem Refuses.choice (h : Refuses g mode first cs) (h' : Refuses g mode second cs) :
    Refuses g mode (.choice first second) cs := by
  intro index blame
  obtain ⟨b, hends⟩ := h index blame
  obtain ⟨b', hends'⟩ := h' index b
  exact ⟨b', hends.choice_right hends'⟩

/-- What may be missing is missing where it is refused. -/
theorem Refuses.opt (h : Refuses g mode item cs) : Reads g mode item.opt cs [] cs :=
  Reads.choice_right h (reads_nothing cs)

/-- Repetition stops where the expression is refused after blanks. -/
theorem Refuses.stop [g.HasBlanks] (h : Refuses g mode item (g.skip mode cs)) :
    Repeats g mode item cs [] cs := by
  obtain ⟨blanks, -, hskip⟩ := skipBlanks_eq (g := g) mode cs
  refine ⟨[], rfl, fun index blame => ?_⟩
  obtain ⟨b, hends⟩ := h (index + blanks.length) blame
  refine ⟨[], b, rfl, ?_⟩
  rw [← hskip] at hends
  exact hends.repeat_stop

/-- Repetition goes on after a match. -/
theorem Reads.repeats [g.HasBlanks] (h : Reads g mode item (g.skip mode cs) nodes mid)
    (h' : Repeats g mode item mid more rest) :
    Repeats g mode item cs (nodes ++ more) rest := by
  obtain ⟨blanks, hcs, hskip⟩ := skipBlanks_eq (g := g) mode cs
  obtain ⟨taken, htaken, hitem⟩ := h
  obtain ⟨taken', rfl, hrest⟩ := h'
  refine ⟨blanks ++ (taken ++ taken'), ?_, fun index blame => ?_⟩
  · rw [List.append_assoc, List.append_assoc, ← htaken, ← hcs]
  · obtain ⟨trees, b, rfl, hends⟩ := hitem (index + blanks.length) blame
    obtain ⟨trees', b', rfl, hends'⟩ := hrest (index + blanks.length + taken.length) b
    refine ⟨trees ++ trees', b', g.outlines_append trees trees', ?_⟩
    rw [List.length_append, List.length_append, ← Nat.add_assoc, ← Nat.add_assoc]
    refine Ends.repeat_more ?_ hends'
    rw [hskip]
    exact hends

/-- A star reads what repetition reads where no blanks come first. -/
theorem Repeats.star [g.HasBlanks] (h : Repeats g mode item cs nodes rest)
    (hcs : g.skip mode cs = cs) : Reads g mode (.star item) cs nodes rest := by
  obtain ⟨blanks, hblanks, hskip⟩ := skipBlanks_eq (g := g) mode cs
  obtain ⟨taken, htaken, h⟩ := h
  refine ⟨taken, htaken, fun index blame => ?_⟩
  obtain ⟨trees, b, htrees, hends⟩ := h index blame
  refine ⟨trees, b, htrees, hends.star ?_⟩
  rw [hcs, List.self_eq_append_left] at hblanks
  rw [hskip, hcs, hblanks]
  rfl

/-- Looking ahead reads nothing where the expression is refused. -/
theorem Refuses.notAhead (h : Refuses g mode item cs) : Reads g mode (.notAhead item) cs [] cs := by
  refine ⟨[], rfl, fun index blame => ⟨[], blame, rfl, ?_⟩⟩
  obtain ⟨b, hends⟩ := h index blame
  exact hends.notAhead

/-- What should not come next is refused where it is read. -/
theorem Reads.notAhead_refuses (h : Reads g mode item cs nodes rest) :
    Refuses g mode (.notAhead item) cs := by
  obtain ⟨taken, -, h⟩ := h
  intro index blame
  obtain ⟨trees, b, -, hends⟩ := h index blame
  exact ⟨blame, hends.notAhead_failed⟩

/-- Looking ahead reads nothing where the expression is read. -/
theorem Reads.ahead (h : Reads g mode item cs nodes rest) :
    Reads g mode (.ahead item) cs [] cs := by
  obtain ⟨taken, -, h⟩ := h
  refine ⟨[], rfl, fun index blame => ⟨[], blame, rfl, ?_⟩⟩
  obtain ⟨trees, b, -, hends⟩ := h index blame
  exact hends.ahead

/-- What should come next is refused where it is. -/
theorem Refuses.ahead (h : Refuses g mode item cs) : Refuses g mode (.ahead item) cs :=
  fun index blame => (h index blame).elim fun _ hends => ⟨blame, hends.ahead_failed⟩

variable {r : R} {taken : List Char}

/-- A visible rule leaves a node around those of its body. -/
theorem Reads.rule (hvisible : (g.production r).manner.isVisible mode = true)
    (h : Reads g ((g.production r).manner.bodyMode mode) (g.production r).body (taken ++ rest)
      nodes rest) :
    Reads g mode (.rule r) (taken ++ rest) [.node r (g.outlineText r taken) nodes] rest := by
  obtain ⟨taken', htaken, h⟩ := h
  obtain rfl := List.append_cancel_right htaken
  refine ⟨taken, rfl, fun index blame => ?_⟩
  obtain ⟨trees, b, rfl, hends⟩ := h index blame
  refine ⟨_, b, ?_, hends.rule hvisible⟩
  rw [Nat.add_sub_cancel_left, List.take_left]
  rfl

/-- A visible rule that is not made of words leaves a node with its text. -/
theorem Reads.rule_text (hwords : (g.production r).manner ≠ .words)
    (hvisible : (g.production r).manner.isVisible mode = true)
    (h : Reads g ((g.production r).manner.bodyMode mode) (g.production r).body (taken ++ rest)
      nodes rest) : Reads g mode (.rule r) (taken ++ rest) [.node r taken nodes] rest := by
  have hnode := Reads.rule hvisible h
  have htext : g.outlineText r taken = taken := if_neg hwords
  rw [htext] at hnode
  exact hnode

/-- A visible rule made of words leaves a node of which the text does not matter. -/
theorem Reads.rule_words (hwords : (g.production r).manner = .words)
    (hvisible : (g.production r).manner.isVisible mode = true)
    (h : Reads g mode (g.production r).body cs nodes rest) :
    Reads g mode (.rule r) cs [.node r [] nodes] rest := by
  obtain ⟨taken, rfl, -⟩ := id h
  have hnode := Reads.rule hvisible (by rw [hwords]; exact h)
  have htext : g.outlineText r taken = [] := if_pos hwords
  rw [htext] at hnode
  exact hnode

/-- A hidden rule leaves the nodes of its body. -/
theorem Reads.rule_hidden (hvisible : (g.production r).manner.isVisible mode = false)
    (h : Reads g ((g.production r).manner.bodyMode mode) (g.production r).body cs nodes rest) :
    Reads g mode (.rule r) cs nodes rest := by
  obtain ⟨taken, hcs, h⟩ := h
  refine ⟨taken, hcs, fun index blame => ?_⟩
  obtain ⟨trees, b, htrees, hends⟩ := h index blame
  exact ⟨trees, b, htrees, hends.rule_hidden hvisible⟩

/-- A rule is refused where its body is. -/
theorem Refuses.rule
    (h : Refuses g ((g.production r).manner.bodyMode mode) (g.production r).body cs) :
    Refuses g mode (.rule r) cs :=
  fun index blame => (h index blame).elim fun _ hends => ⟨_, hends.rule_failed⟩

end Reads

/-! ## Parsing -/

variable {g : Grammar R} {reads : R → Bool} {rank : R → Nat} {r : R} {cs : List Char}

/-- How a call of a rule ends with high bounds is how it ends with the bound of `parse`. -/
theorem Ends.matchRule_eq (hg : g.IsGuarded reads rank) {o : Outcome R}
    (h : Ends g .words (.rule r) ⟨cs, 0, 0⟩ o) :
    matchRule g ((cs.length + 2) * g.ruleCount) r .words ⟨cs, 0, 0⟩ = o := by
  obtain ⟨n, hn⟩ := h
  have hbound : cs.length * g.ruleCount + rank r < (cs.length + 2) * g.ruleCount := by
    have := hg.rank_lt r
    rw [Nat.add_mul]
    omega
  rw [← matchRule_mono (Nat.le_max_left _ n) (matchRule_within hg hbound)]
  exact hn _ (Nat.le_max_right _ n)

/-- What a rule reads is parsed. -/
theorem Reads.parse (hg : g.IsGuarded reads rank) {nodes : List (Outline R)} {rest : List Char}
    (h : Reads g .words (.rule r) cs nodes rest) :
    ∃ trees, g.parse r cs = .ok trees ∧ g.outlines trees = nodes := by
  obtain ⟨taken, -, h⟩ := h
  obtain ⟨trees, blame, htrees, hends⟩ := h 0 0
  refine ⟨trees, ?_, htrees⟩
  unfold Grammar.parse
  rw [hends.matchRule_eq hg]

/-- What a rule refuses is not parsed. -/
theorem Refuses.parse (hg : g.IsGuarded reads rank) (h : Refuses g .words (.rule r) cs) :
    ∃ blame, g.parse r cs = .error blame := by
  obtain ⟨blame, hends⟩ := h 0 0
  refine ⟨blame, ?_⟩
  unfold Grammar.parse
  rw [hends.matchRule_eq hg]

end RdfStore.Peg
