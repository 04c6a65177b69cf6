import RdfStore.Proofs.Peg.Spelling
import RdfStore.Proofs.Peg.Reads

/-!
# Runs

A run is how matching a text goes, step by step, without places in a document and without bounds.
Every end of the matcher comes from a run, and every run tells what is read and what is refused.
So what is known to be read can be taken apart into what its parts read.
-/

set_option autoImplicit false

namespace RdfStore.Peg

variable {R : Type}

/-- What is to be matched: an expression, or its repetition after a first match. -/
inductive Task (R : Type) where
  | once (e : Expr R)
  | again (item : Expr R)

/-- The expression of a task. -/
def Task.expr : Task R → Expr R
  | .once e => e
  | .again item => item

/-- What a run ends with: outlines of nodes and the rest of the text, or a failure. -/
abbrev Result (R : Type) := Option (List (Outline R) × List Char)

/-- The outlines that a rule leaves around those of its body. -/
def Grammar.around (g : Grammar R) (r : R) (mode : Mode) (taken : List Char)
    (nodes : List (Outline R)) : List (Outline R) :=
  if (g.production r).manner.isVisible mode then [.node r (g.outlineText r taken) nodes] else nodes

/-- How matching goes, with one rule for each way in which expressions are put together. -/
inductive Runs (g : Grammar R) : Mode → Task R → List Char → Result R → Prop where
  | nothing {mode : Mode} {cs : List Char} : Runs g mode (.once .nothing) cs (some ([], cs))
  | char {mode : Mode} {isMember : Char → Bool} {c : Char} {rest : List Char}
    (h : isMember c = true) : Runs g mode (.once (.char isMember)) (c :: rest) (some ([], rest))
  | char_failed {mode : Mode} {isMember : Char → Bool} {cs : List Char}
    (h : ∀ c ∈ cs.head?, isMember c = false) : Runs g mode (.once (.char isMember)) cs none
  | text {mode : Mode} {chars cs rest : List Char} (h : stripText? false chars cs = some rest) :
    Runs g mode (.once (.text chars)) cs (some ([], rest))
  | text_failed {mode : Mode} {chars cs : List Char} (h : stripText? false chars cs = none) :
    Runs g mode (.once (.text chars)) cs none
  | word {mode : Mode} {chars cs rest : List Char} (h : stripText? true chars cs = some rest) :
    Runs g mode (.once (.word chars)) cs (some ([], rest))
  | word_failed {mode : Mode} {chars cs : List Char} (h : stripText? true chars cs = none) :
    Runs g mode (.once (.word chars)) cs none
  | rule {mode : Mode} {r : R} {cs taken rest : List Char} {nodes : List (Outline R)}
    (hcs : cs = taken ++ rest)
    (h : Runs g ((g.production r).manner.bodyMode mode) (.once (g.production r).body) cs
      (some (nodes, rest))) :
    Runs g mode (.once (.rule r)) cs (some (g.around r mode taken nodes, rest))
  | rule_failed {mode : Mode} {r : R} {cs : List Char}
    (h : Runs g ((g.production r).manner.bodyMode mode) (.once (g.production r).body) cs none) :
    Runs g mode (.once (.rule r)) cs none
  | seq {mode : Mode} {first second : Expr R} {cs mid rest : List Char}
    {nodes more : List (Outline R)} (h : Runs g mode (.once first) cs (some (nodes, mid)))
    (h' : Runs g mode (.once second) (g.skip mode mid) (some (more, rest))) :
    Runs g mode (.once (.seq first second)) cs (some (nodes ++ more, rest))
  | seq_left {mode : Mode} {first second : Expr R} {cs : List Char}
    (h : Runs g mode (.once first) cs none) : Runs g mode (.once (.seq first second)) cs none
  | seq_right {mode : Mode} {first second : Expr R} {cs mid : List Char}
    {nodes : List (Outline R)} (h : Runs g mode (.once first) cs (some (nodes, mid)))
    (h' : Runs g mode (.once second) (g.skip mode mid) none) :
    Runs g mode (.once (.seq first second)) cs none
  | choice_left {mode : Mode} {first second : Expr R} {cs rest : List Char}
    {nodes : List (Outline R)} (h : Runs g mode (.once first) cs (some (nodes, rest))) :
    Runs g mode (.once (.choice first second)) cs (some (nodes, rest))
  | choice_right {mode : Mode} {first second : Expr R} {cs : List Char} {result : Result R}
    (h : Runs g mode (.once first) cs none) (h' : Runs g mode (.once second) cs result) :
    Runs g mode (.once (.choice first second)) cs result
  | star_stop {mode : Mode} {item : Expr R} {cs : List Char}
    (h : Runs g mode (.once item) cs none) :
    Runs g mode (.once (.star item)) cs (some ([], cs))
  | star {mode : Mode} {item : Expr R} {cs mid rest : List Char} {nodes more : List (Outline R)}
    (h : Runs g mode (.once item) cs (some (nodes, mid)))
    (h' : Runs g mode (.again item) mid (some (more, rest))) :
    Runs g mode (.once (.star item)) cs (some (nodes ++ more, rest))
  | again_stop {mode : Mode} {item : Expr R} {cs : List Char}
    (h : Runs g mode (.once item) (g.skip mode cs) none) :
    Runs g mode (.again item) cs (some ([], cs))
  | again {mode : Mode} {item : Expr R} {cs mid rest : List Char} {nodes more : List (Outline R)}
    (h : Runs g mode (.once item) (g.skip mode cs) (some (nodes, mid)))
    (h' : Runs g mode (.again item) mid (some (more, rest))) :
    Runs g mode (.again item) cs (some (nodes ++ more, rest))
  | notAhead {mode : Mode} {item : Expr R} {cs : List Char}
    (h : Runs g mode (.once item) cs none) :
    Runs g mode (.once (.notAhead item)) cs (some ([], cs))
  | notAhead_failed {mode : Mode} {item : Expr R} {cs rest : List Char}
    {nodes : List (Outline R)} (h : Runs g mode (.once item) cs (some (nodes, rest))) :
    Runs g mode (.once (.notAhead item)) cs none
  | ahead {mode : Mode} {item : Expr R} {cs rest : List Char} {nodes : List (Outline R)}
    (h : Runs g mode (.once item) cs (some (nodes, rest))) :
    Runs g mode (.once (.ahead item)) cs (some ([], cs))
  | ahead_failed {mode : Mode} {item : Expr R} {cs : List Char}
    (h : Runs g mode (.once item) cs none) : Runs g mode (.once (.ahead item)) cs none

/-! ## From the matcher to runs -/

/-- An end of the matcher comes from a run. -/
def Outcome.Comes (g : Grammar R) (mode : Mode) (task : Task R) (s : State) : Outcome R → Prop
  | .matched nodes s' => ∃ taken, s.rest = taken ++ s'.rest ∧
    s'.index = s.index + taken.length ∧ Runs g mode task s.rest (some (g.outlines nodes, s'.rest))
  | .failed _ => Runs g mode task s.rest none
  | .exhausted => True

section Comes

variable {g : Grammar R} {call : R → Mode → State → Outcome R} {fuel : Nat} {mode : Mode}
  {item : Expr R}

/-- An end at a character comes from a run. -/
theorem char_comes (isMember : Char → Bool) (s : State) :
    (matchExpr g call fuel mode (.char isMember) s).Comes g mode (.once (.char isMember)) s := by
  unfold matchExpr
  split
  · rename_i c rest hrest
    split
    · rename_i hmember
      refine ⟨[c], hrest, rfl, ?_⟩
      rw [hrest]
      exact .char hmember
    · rename_i hmember
      refine .char_failed fun d hd => ?_
      rw [hrest] at hd
      cases hd
      exact eq_false_of_ne_true hmember
  · rename_i hrest
    refine .char_failed fun d hd => ?_
    rw [hrest] at hd
    cases hd

/-- If ends of two expressions come from runs, so do ends of their choice. -/
theorem choice_comes {first second : Expr R}
    (h : ∀ s, (matchExpr g call fuel mode first s).Comes g mode (.once first) s)
    (h' : ∀ s, (matchExpr g call fuel mode second s).Comes g mode (.once second) s) (s : State) :
    (matchExpr g call fuel mode (.choice first second) s).Comes g mode
      (.once (.choice first second)) s := by
  have hfirst := h s
  unfold matchExpr
  cases hfront : matchExpr g call fuel mode first s with
  | matched nodes s₁ =>
    rw [hfront] at hfirst
    obtain ⟨taken, hrest, hindex, hrun⟩ := hfirst
    exact ⟨taken, hrest, hindex, .choice_left hrun⟩
  | failed blame =>
    rw [hfront] at hfirst
    have hsecond := h' { s with blame := blame }
    dsimp only
    cases hback : matchExpr g call fuel mode second { s with blame := blame } with
    | matched nodes s₁ =>
      rw [hback] at hsecond
      obtain ⟨taken, hrest, hindex, hrun⟩ := hsecond
      exact ⟨taken, hrest, hindex, .choice_right hfirst hrun⟩
    | failed blame' =>
      rw [hback] at hsecond
      exact .choice_right hfirst hsecond
    | exhausted => exact trivial
  | exhausted => exact trivial

variable [g.HasBlanks]

/-- What is read after blanks is read after the text before them. -/
theorem exists_taken_of_skipBlanks {s s₁ s₂ : State}
    (h : ∃ taken, s.rest = taken ++ s₁.rest ∧ s₁.index = s.index + taken.length)
    (h' : ∃ taken, (skipBlanks g mode s₁).rest = taken ++ s₂.rest ∧
      s₂.index = (skipBlanks g mode s₁).index + taken.length) :
    ∃ taken, s.rest = taken ++ s₂.rest ∧ s₂.index = s.index + taken.length := by
  obtain ⟨taken, hrest, hindex⟩ := h
  obtain ⟨taken', hrest', hindex'⟩ := h'
  obtain ⟨blanks, hblanks, hskip⟩ := skipBlanks_eq (g := g) mode s₁.rest
  have hs : skipBlanks g mode s₁ = ⟨g.skip mode s₁.rest, s₁.index + blanks.length, s₁.blame⟩ :=
    hskip s₁.index s₁.blame
  rw [hs] at hrest' hindex'
  dsimp only at hrest' hindex'
  refine ⟨taken ++ (blanks ++ taken'), ?_, ?_⟩
  · rw [hrest, hblanks, hrest', List.append_assoc, List.append_assoc]
  · rw [hindex', hindex, List.length_append, List.length_append]
    omega

/-- After blanks the matcher goes on where the text does. -/
theorem rest_skipBlanks (s : State) : (skipBlanks g mode s).rest = g.skip mode s.rest := by
  obtain ⟨blanks, -, hskip⟩ := skipBlanks_eq (g := g) mode s.rest
  exact congrArg State.rest (hskip s.index s.blame)

/-- If ends of an item come from runs, so do ends of its repetition. -/
theorem repeatStep_comes
    (h : ∀ s, (matchExpr g call fuel mode item s).Comes g mode (.once item) s) (bound : Nat)
    (s : State) :
    (repeatStep (fun s => matchExpr g call fuel mode item (skipBlanks g mode s)) bound s).Comes
      g mode (.again item) s := by
  induction bound generalizing s with
  | zero => exact trivial
  | succ bound ih =>
    have hitem := h (skipBlanks g mode s)
    unfold repeatStep
    cases hfirst : matchExpr g call fuel mode item (skipBlanks g mode s) with
    | matched nodes s₁ =>
      rw [hfirst] at hitem
      obtain ⟨taken, hrest, hindex, hrun⟩ := hitem
      rw [rest_skipBlanks] at hrun
      dsimp only
      have hmore := ih s₁
      cases hagain : repeatStep
          (fun s => matchExpr g call fuel mode item (skipBlanks g mode s)) bound s₁ with
      | matched more s₂ =>
        rw [hagain] at hmore
        obtain ⟨taken', hrest', hindex', hrun'⟩ := hmore
        have hboth : ∃ taken, (skipBlanks g mode s).rest = taken ++ s₂.rest ∧
            s₂.index = (skipBlanks g mode s).index + taken.length := by
          refine ⟨taken ++ taken', by rw [hrest, hrest', List.append_assoc], ?_⟩
          rw [hindex', hindex, List.length_append, Nat.add_assoc]
        obtain ⟨all, hall, hlength⟩ := exists_taken_of_skipBlanks (s := s) ⟨[], rfl, rfl⟩ hboth
        refine ⟨all, hall, hlength, ?_⟩
        rw [g.outlines_append]
        exact .again hrun hrun'
      | failed blame =>
        rw [hagain] at hmore
        cases hmore
      | exhausted => exact trivial
    | failed blame =>
      rw [hfirst] at hitem
      refine ⟨[], rfl, rfl, .again_stop ?_⟩
      rw [← rest_skipBlanks]
      exact hitem
    | exhausted => exact trivial

/-- If ends of two expressions come from runs, so do ends of their sequence. -/
theorem seq_comes {first second : Expr R}
    (h : ∀ s, (matchExpr g call fuel mode first s).Comes g mode (.once first) s)
    (h' : ∀ s, (matchExpr g call fuel mode second s).Comes g mode (.once second) s) (s : State) :
    (matchExpr g call fuel mode (.seq first second) s).Comes g mode (.once (.seq first second))
      s := by
  have hfirst := h s
  unfold matchExpr
  cases hfront : matchExpr g call fuel mode first s with
  | matched nodes s₁ =>
    rw [hfront] at hfirst
    obtain ⟨taken, hrest, hindex, hrun⟩ := hfirst
    have hsecond := h' (skipBlanks g mode s₁)
    dsimp only
    cases hback : matchExpr g call fuel mode second (skipBlanks g mode s₁) with
    | matched more s₂ =>
      rw [hback] at hsecond
      obtain ⟨taken', hrest', hindex', hrun'⟩ := hsecond
      obtain ⟨all, hall, hlength⟩ := exists_taken_of_skipBlanks (s := s) ⟨taken, hrest, hindex⟩
        ⟨taken', hrest', hindex'⟩
      rw [rest_skipBlanks] at hrun'
      refine ⟨all, hall, hlength, ?_⟩
      rw [g.outlines_append]
      exact .seq hrun hrun'
    | failed blame =>
      rw [hback] at hsecond
      refine .seq_right hrun ?_
      rw [← rest_skipBlanks]
      exact hsecond
    | exhausted => exact trivial
  | failed blame =>
    rw [hfront] at hfirst
    exact .seq_left hfirst
  | exhausted => exact trivial

/-- If ends of an item come from runs, so do ends of its star. -/
theorem star_comes
    (h : ∀ s, (matchExpr g call fuel mode item s).Comes g mode (.once item) s) (s : State) :
    (matchExpr g call fuel mode (.star item) s).Comes g mode (.once (.star item)) s := by
  have hitem := h s
  unfold matchExpr
  cases hfront : matchExpr g call fuel mode item s with
  | matched nodes s₁ =>
    rw [hfront] at hitem
    obtain ⟨taken, hrest, hindex, hrun⟩ := hitem
    have hmore := repeatStep_comes h fuel s₁
    dsimp only
    cases hagain : repeatStep
        (fun s => matchExpr g call fuel mode item (skipBlanks g mode s)) fuel s₁ with
    | matched more s₂ =>
      rw [hagain] at hmore
      obtain ⟨taken', hrest', hindex', hrun'⟩ := hmore
      refine ⟨taken ++ taken', by rw [hrest, hrest', List.append_assoc], ?_, ?_⟩
      · rw [hindex', hindex, List.length_append, Nat.add_assoc]
      · rw [g.outlines_append]
        exact .star hrun hrun'
    | failed blame =>
      rw [hagain] at hmore
      cases hmore
    | exhausted => exact trivial
  | failed blame =>
    rw [hfront] at hitem
    exact ⟨[], rfl, rfl, .star_stop hitem⟩
  | exhausted => exact trivial

/-- If ends of calls come from runs, so do ends of expressions. -/
theorem matchExpr_comes (hcall : ∀ r mode s, (call r mode s).Comes g mode (.once (.rule r)) s)
    (e : Expr R) (s : State) : (matchExpr g call fuel mode e s).Comes g mode (.once e) s := by
  induction e generalizing s with
  | nothing => exact ⟨[], rfl, rfl, .nothing⟩
  | char isMember => exact char_comes isMember s
  | text chars =>
    unfold matchExpr
    split
    · rename_i rest hstrip
      obtain ⟨read, hrest, hlength, -⟩ := exists_of_stripText? hstrip
      exact ⟨read, hrest, by rw [hlength], .text hstrip⟩
    · rename_i hstrip
      exact .text_failed hstrip
  | word chars =>
    unfold matchExpr
    split
    · rename_i rest hstrip
      obtain ⟨read, hrest, hlength, -⟩ := exists_of_stripText? hstrip
      exact ⟨read, hrest, by rw [hlength], .word hstrip⟩
    · rename_i hstrip
      exact .word_failed hstrip
  | rule r => exact hcall r mode s
  | seq first second ihFirst ihSecond => exact seq_comes ihFirst ihSecond s
  | choice first second ihFirst ihSecond => exact choice_comes ihFirst ihSecond s
  | star item ih => exact star_comes ih s
  | notAhead item ih =>
    have hitem := ih s
    unfold matchExpr
    cases hfront : matchExpr g call fuel mode item s with
    | matched nodes s₁ =>
      rw [hfront] at hitem
      obtain ⟨taken, hrest, hindex, hrun⟩ := hitem
      exact .notAhead_failed hrun
    | failed blame =>
      rw [hfront] at hitem
      exact ⟨[], rfl, rfl, .notAhead hitem⟩
    | exhausted => exact trivial
  | ahead item ih =>
    have hitem := ih s
    unfold matchExpr
    cases hfront : matchExpr g call fuel mode item s with
    | matched nodes s₁ =>
      rw [hfront] at hitem
      obtain ⟨taken, hrest, hindex, hrun⟩ := hitem
      exact ⟨[], rfl, rfl, .ahead hrun⟩
    | failed blame =>
      rw [hfront] at hitem
      exact .ahead_failed hitem
    | exhausted => exact trivial

/-- Every end of a call comes from a run. -/
theorem matchRule_comes (fuel : Nat) (r : R) (mode : Mode) (s : State) :
    (matchRule g fuel r mode s).Comes g mode (.once (.rule r)) s := by
  induction fuel generalizing r mode s with
  | zero => exact trivial
  | succ fuel ih =>
    have hbody : (matchExpr g (matchRule g fuel) fuel ((g.production r).manner.bodyMode mode)
        (g.production r).body s).Comes g _ (.once (g.production r).body) s :=
      matchExpr_comes ih (g.production r).body s
    unfold matchRule
    dsimp only
    cases hend : matchExpr g (matchRule g fuel) fuel ((g.production r).manner.bodyMode mode)
        (g.production r).body s with
    | matched nodes s₁ =>
      rw [hend] at hbody
      obtain ⟨taken, hrest, hindex, hrun⟩ := hbody
      have hnode := @Runs.rule _ g mode _ _ _ _ _ hrest hrun
      have htaken : s.rest.take (s₁.index - s.index) = taken := by
        rw [hindex, Nat.add_sub_cancel_left, hrest, List.take_left]
      unfold Grammar.around at hnode
      dsimp only
      split
      · rename_i hvisible
        rw [if_pos hvisible] at hnode
        refine ⟨taken, hrest, hindex, ?_⟩
        rw [htaken]
        exact hnode
      · rename_i hvisible
        rw [if_neg hvisible] at hnode
        exact ⟨taken, hrest, hindex, hnode⟩
    | failed blame =>
      rw [hend] at hbody
      exact .rule_failed hbody
    | exhausted => exact trivial

variable {e : Expr R} {cs rest : List Char} {nodes : List (Outline R)}

/-- What an expression reads, it reads in a run. -/
theorem Reads.runs (h : Reads g mode e cs nodes rest) :
    Runs g mode (.once e) cs (some (nodes, rest)) := by
  obtain ⟨taken, -, h⟩ := h
  obtain ⟨trees, blame, rfl, least, hleast⟩ := h 0 0
  have hcomes : (matchExpr g (matchRule g least) least mode e ⟨cs, 0, 0⟩).Comes g mode (.once e)
      ⟨cs, 0, 0⟩ := matchExpr_comes (matchRule_comes least) e _
  rw [hleast least (Nat.le_refl least)] at hcomes
  obtain ⟨_, _, _, hrun⟩ := hcomes
  exact hrun

/-- What an expression refuses, it refuses in a run. -/
theorem Refuses.runs (h : Refuses g mode e cs) : Runs g mode (.once e) cs none := by
  obtain ⟨blame, least, hleast⟩ := h 0 0
  have hcomes : (matchExpr g (matchRule g least) least mode e ⟨cs, 0, 0⟩).Comes g mode (.once e)
      ⟨cs, 0, 0⟩ := matchExpr_comes (matchRule_comes least) e _
  rw [hleast least (Nat.le_refl least)] at hcomes
  exact hcomes

end Comes

/-! ## From runs to what is read -/

section Sound

variable {g : Grammar R} {mode : Mode} {e item : Expr R} {cs mid rest : List Char}
  {nodes more : List (Outline R)}

/-- A star reads a first match and then its repetition. -/
theorem Reads.star_more (h : Reads g mode item cs nodes mid)
    (h' : Repeats g mode item mid more rest) :
    Reads g mode (.star item) cs (nodes ++ more) rest := by
  obtain ⟨taken, rfl, hitem⟩ := h
  obtain ⟨taken', rfl, hmore⟩ := h'
  refine ⟨taken ++ taken', (List.append_assoc _ _ _).symm, fun index blame => ?_⟩
  obtain ⟨trees, b, rfl, hends⟩ := hitem index blame
  obtain ⟨trees', b', rfl, hends'⟩ := hmore (index + taken.length) b
  refine ⟨trees ++ trees', b', g.outlines_append trees trees', ?_⟩
  rw [List.length_append, ← Nat.add_assoc]
  exact hends.star_more hends'

/-- A star reads nothing where its item is refused. -/
theorem Refuses.star_stop (h : Refuses g mode item cs) : Reads g mode (.star item) cs [] cs := by
  refine ⟨[], rfl, fun index blame => ?_⟩
  obtain ⟨b, hends⟩ := h index blame
  exact ⟨[], b, rfl, hends.star_stop⟩

/-- What is read is not refused. -/
theorem Reads.not_refuses (h : Reads g mode e cs nodes rest) : ¬Refuses g mode e cs := by
  obtain ⟨_, _, h⟩ := h
  intro h'
  obtain ⟨trees, b, -, n, hn⟩ := h 0 0
  obtain ⟨b', m, hm⟩ := h' 0 0
  have hsame := (hn (max n m) (Nat.le_max_left n m)).symm.trans (hm _ (Nat.le_max_right n m))
  cases hsame

/-- What a run says about a task. -/
def Result.Holds (g : Grammar R) (mode : Mode) (cs : List Char) : Task R → Result R → Prop
  | .once e, some (nodes, rest) => Reads g mode e cs nodes rest
  | .once e, none => Refuses g mode e cs
  | .again item, some (nodes, rest) => Repeats g mode item cs nodes rest
  | .again _, none => True

/-- What a run ends with holds. -/
theorem Runs.holds [g.HasBlanks] {task : Task R} {result : Result R}
    (h : Runs g mode task cs result) : Result.Holds g mode cs task result := by
  induction h with
  | nothing => exact reads_nothing _
  | char h => exact reads_char h _
  | char_failed h =>
    rename_i cs
    cases cs with
    | nil => exact fun _ blame => ⟨blame, ends_of_eq fun _ => rfl⟩
    | cons c cs => exact refuses_char (h c rfl) cs
  | text h =>
    obtain ⟨read, rfl, hlength, hread⟩ := exists_of_stripText? h
    refine ⟨read, rfl, fun _ blame => ⟨[], blame, rfl, ends_of_eq fun fuel => ?_⟩⟩
    rw [matchExpr]
    dsimp only
    rw [h, hlength]
  | text_failed h => exact refuses_text h
  | word h =>
    obtain ⟨read, rfl, hlength, hread⟩ := exists_of_stripText? h
    refine ⟨read, rfl, fun _ blame => ⟨[], blame, rfl, ends_of_eq fun fuel => ?_⟩⟩
    rw [matchExpr]
    dsimp only
    rw [h, hlength]
  | word_failed h => exact refuses_word h
  | rule hcs _ ih =>
    subst hcs
    unfold Grammar.around
    split
    · rename_i hvisible
      exact Reads.rule hvisible ih
    · rename_i hvisible
      exact Reads.rule_hidden (eq_false_of_ne_true hvisible) ih
  | rule_failed _ ih => exact Refuses.rule ih
  | seq _ _ ih ih' => exact Reads.seq ih ih'
  | seq_left _ ih => exact Refuses.seq ih
  | seq_right _ _ ih ih' => exact Reads.seq_refuses ih ih'
  | choice_left _ ih => exact Reads.choice_left ih
  | choice_right _ _ ih ih' =>
    rename_i result _ _
    cases result with
    | some _ => exact Reads.choice_right ih ih'
    | none => exact Refuses.choice ih ih'
  | star_stop _ ih => exact Refuses.star_stop ih
  | star _ _ ih ih' => exact Reads.star_more ih ih'
  | again_stop _ ih => exact Refuses.stop ih
  | again _ _ ih ih' => exact Reads.repeats ih ih'
  | notAhead _ ih => exact Refuses.notAhead ih
  | notAhead_failed _ ih => exact Reads.notAhead_refuses ih
  | ahead _ ih => exact Reads.ahead ih
  | ahead_failed _ ih => exact Refuses.ahead ih

/-- What an expression reads in a run, it reads. -/
theorem Runs.reads [g.HasBlanks] (h : Runs g mode (.once e) cs (some (nodes, rest))) :
    Reads g mode e cs nodes rest := h.holds

/-- What an expression refuses in a run, it refuses. -/
theorem Runs.refuses [g.HasBlanks] (h : Runs g mode (.once e) cs none) : Refuses g mode e cs :=
  h.holds

/-- What the matcher reads with some bound, it reads. -/
theorem reads_of_matched [g.HasBlanks] {fuel : Nat} {trees : List (ParseTree R)} {s : State}
    (h : matchExpr g (matchRule g fuel) fuel mode e ⟨cs, 0, 0⟩ = .matched trees s) :
    Reads g mode e cs (g.outlines trees) s.rest := by
  have hcomes : (matchExpr g (matchRule g fuel) fuel mode e ⟨cs, 0, 0⟩).Comes g mode (.once e)
      ⟨cs, 0, 0⟩ := matchExpr_comes (matchRule_comes fuel) e _
  rw [h] at hcomes
  obtain ⟨_, _, _, hrun⟩ := hcomes
  exact hrun.reads

end Sound

end RdfStore.Peg
