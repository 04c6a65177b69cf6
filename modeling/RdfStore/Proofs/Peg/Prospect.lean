import RdfStore.Proofs.Peg.Cut

/-!
# Prospects

What becomes of an attempt to match a text that is cut may depend on what stands behind the cut, but
in a few ways only: it ends at a known place before the cut, it is refused, or it ends behind the
cut. A prospect lists the ways that are open, and it is computed without knowing the rest. From
behind the cut matching goes on as in any text, so it comes to an end there in a guarded grammar.
Hence what has a prospect is clear whatever stands behind the cut. The rest may be cut itself, and
then prospects are put together front by front.
-/

set_option autoImplicit false

namespace RdfStore.Peg

open RdfStore.Text

variable {R : Type}

/-! ## More of a text -/

/-- A view with more of the text in place of its cut. -/
def View.extend (more v : View) : View :=
  if v.isCut then ⟨v.seen ++ more.seen, more.isCut⟩ else v

/-- What is known of an attempt, with more of the text in place of the cut. -/
def Sight.extend (more : View) : Sight → Sight
  | .reads rest => .reads (more.extend rest)
  | .refuses => .refuses
  | .unclear => .unclear

/-- What the end of an attempt to match a whole text tells. -/
def Sight.ofOutcome : Outcome R → Sight
  | .matched _ s => .reads ⟨s.rest, false⟩
  | .failed _ => .refuses
  | .exhausted => .unclear

/-- An attempt that is refused, or ends behind the cut. -/
def Sight.IsBeyond : Sight → Prop
  | .reads rest => rest.isCut = false
  | .refuses => True
  | .unclear => False

/-! ## Ways that are open -/

/-- What may become of an attempt to match a text that is cut. -/
structure Prospect where
  /-- Where it may end before the cut. -/
  ends : List View
  /-- It may be refused. -/
  refuses : Bool
  /-- It may end behind the cut. -/
  crosses : Bool

namespace Prospect

/-- The way that is known is the only one. -/
def ofSight : Sight → Option Prospect
  | .reads rest => some ⟨[rest], false, false⟩
  | .refuses => some ⟨[], true, false⟩
  | .unclear => none

/-- What may become of attempts at some of the views. -/
def gather (attempt : View → Option Prospect) : List View → Option Prospect
  | [] => some ⟨[], false, false⟩
  | v :: views =>
    (attempt v).bind fun p => (gather attempt views).map fun q =>
      ⟨p.ends ++ q.ends, p.refuses || q.refuses, p.crosses || q.crosses⟩

/-- A second attempt where the first one ends. -/
def andThen (p : Prospect) (attempt : View → Option Prospect) : Option Prospect :=
  (gather attempt p.ends).map fun q =>
    ⟨q.ends, p.refuses || p.crosses || q.refuses, p.crosses || q.crosses⟩

/-- A second attempt where the first one is refused. -/
def orElse (p : Prospect) (second : Option Prospect) : Option Prospect :=
  if p.refuses then
    second.map fun q => ⟨p.ends ++ q.ends, q.refuses, p.crosses || q.crosses⟩
  else some p

/-- More attempts where the first one ends; it stays at the view where it is refused. -/
def repeated (p : Prospect) (v : View) (attempt : View → Option Prospect) : Option Prospect :=
  (gather attempt p.ends).map fun q =>
    ⟨(if p.refuses then [v] else []) ++ q.ends, q.refuses, p.crosses || q.crosses⟩

/-- Attempts until one is refused, at most `fuel` of them. -/
def again (attempt : View → Option Prospect) : Nat → View → Option Prospect
  | 0, _ => none
  | fuel + 1, v => (attempt v).bind fun p => p.repeated v (again attempt fuel)

/-- It may be read, whatever is left of the text. -/
def mayRead (p : Prospect) : Bool := !p.ends.isEmpty || p.crosses

/-- The ways are open that a sight of the longer text shows. -/
def Allows (more : View) (p : Prospect) : Sight → Prop
  | .reads rest => (∃ v ∈ p.ends, rest = more.extend v) ∨ (p.crosses = true ∧ rest.isCut = false)
  | .refuses => p.refuses = true
  | .unclear => False

variable {p q result : Prospect} {more v : View} {s : Sight} {attempt : View → Option Prospect}

/-- A prospect with the same ways and others allows what the prospect allows. -/
theorem Allows.mono (h : p.Allows more s) (hends : p.ends ⊆ q.ends)
    (hrefuses : p.refuses = true → q.refuses = true)
    (hcrosses : p.crosses = true → q.crosses = true) : q.Allows more s := by
  cases s with
  | reads rest => exact h.imp (fun ⟨v, hv, hrest⟩ => ⟨v, hends hv, hrest⟩) (And.imp_left hcrosses)
  | refuses => exact hrefuses h
  | unclear => exact h

/-- What is unclear has no prospect. -/
theorem ne_unclear_of_ofSight (h : ofSight s = some p) : s ≠ .unclear := by
  rintro rfl
  cases h

/-- The only way is open. -/
theorem allows_of_ofSight (h : ofSight s = some p) : p.Allows more (s.extend more) := by
  cases s with
  | reads rest =>
    cases h
    exact .inl ⟨rest, List.mem_singleton_self rest, rfl⟩
  | refuses =>
    cases h
    rfl
  | unclear => cases h

/-- What may become of the attempt at one view may become of the attempts. -/
theorem exists_of_gather {views : List View} (h : gather attempt views = some q) (hv : v ∈ views) :
    ∃ p, attempt v = some p ∧ ∀ s, p.Allows more s → q.Allows more s := by
  induction views generalizing q with
  | nil => cases hv
  | cons u views ih =>
    obtain ⟨p, hp, hmap⟩ := Option.bind_eq_some_iff.mp h
    obtain ⟨rest, hrest, rfl⟩ := Option.map_eq_some_iff.mp hmap
    rcases List.mem_cons.mp hv with rfl | hv
    · exact ⟨p, hp, fun s hs => hs.mono (List.subset_append_left _ _)
        (Bool.or_eq_true_iff.mpr ∘ .inl) (Bool.or_eq_true_iff.mpr ∘ .inl)⟩
    · obtain ⟨p', hp', hallows⟩ := ih hrest hv
      exact ⟨p', hp', fun s hs => (hallows s hs).mono (List.subset_append_right _ _)
        (Bool.or_eq_true_iff.mpr ∘ .inr) (Bool.or_eq_true_iff.mpr ∘ .inr)⟩

/-- Of two attempts the first is refused, or it ends before the cut and the second goes on there, or
it ends behind the cut, from where anything may become of the second. -/
theorem andThen_cases (h : p.andThen attempt = some result) (hs : p.Allows more s) :
    (s = .refuses ∧ result.refuses = true) ∨
      (∃ v q, s = .reads (more.extend v) ∧ attempt v = some q ∧
        ∀ s', q.Allows more s' → result.Allows more s') ∨
      (∃ cs, s = .reads ⟨cs, false⟩ ∧ result.refuses = true ∧ result.crosses = true) := by
  obtain ⟨q, hq, rfl⟩ := Option.map_eq_some_iff.mp h
  cases s with
  | unclear => exact hs.elim
  | refuses =>
    refine .inl ⟨rfl, ?_⟩
    rw [show p.refuses = true from hs, Bool.true_or, Bool.true_or]
  | reads rest =>
    rcases hs with ⟨v, hv, rfl⟩ | ⟨hcrosses, hrest⟩
    · obtain ⟨q₁, hq₁, hallows⟩ := exists_of_gather hq hv
      exact .inr (.inl ⟨v, q₁, rfl, hq₁, fun s' hs' => (hallows s' hs').mono (List.Subset.refl _)
        (Bool.or_eq_true_iff.mpr ∘ .inr) (Bool.or_eq_true_iff.mpr ∘ .inr)⟩)
    · obtain ⟨cs, isCut⟩ := rest
      cases hrest
      refine .inr (.inr ⟨cs, rfl, ?_, ?_⟩)
      · rw [hcrosses, Bool.or_true, Bool.true_or]
      · rw [hcrosses, Bool.true_or]

/-- Attempts are refused at once, or the first ends before the cut and more of them go on there, or
it ends behind the cut. -/
theorem repeated_cases (h : p.repeated v attempt = some result) (hs : p.Allows more s) :
    (s = .refuses ∧ result.Allows more (.reads (more.extend v))) ∨
      (∃ v₁ q, s = .reads (more.extend v₁) ∧ attempt v₁ = some q ∧
        ∀ s', q.Allows more s' → result.Allows more s') ∨
      (∃ cs, s = .reads ⟨cs, false⟩ ∧ result.crosses = true) := by
  obtain ⟨q, hq, rfl⟩ := Option.map_eq_some_iff.mp h
  cases s with
  | unclear => exact hs.elim
  | refuses =>
    refine .inl ⟨rfl, .inl ⟨v, ?_, rfl⟩⟩
    rw [if_pos (show p.refuses = true from hs)]
    exact List.mem_cons_self
  | reads rest =>
    rcases hs with ⟨v₁, hv₁, rfl⟩ | ⟨hcrosses, hrest⟩
    · obtain ⟨q₁, hq₁, hallows⟩ := exists_of_gather hq hv₁
      exact .inr (.inl ⟨v₁, q₁, rfl, hq₁, fun s' hs' => (hallows s' hs').mono
        (List.subset_append_right _ _) id (Bool.or_eq_true_iff.mpr ∘ .inr)⟩)
    · obtain ⟨cs, isCut⟩ := rest
      cases hrest
      refine .inr (.inr ⟨cs, rfl, ?_⟩)
      rw [hcrosses, Bool.true_or]

/-- What is read may be read. -/
theorem Allows.mayRead {rest : View} (h : p.Allows more (.reads rest)) : p.mayRead = true := by
  unfold Prospect.mayRead
  rcases h with ⟨v, hv, -⟩ | ⟨hcrosses, -⟩
  · cases hends : p.ends with
    | nil => rw [hends] at hv; cases hv
    | cons u views => rfl
  · rw [hcrosses, Bool.or_true]

/-- Where no end before the cut is open, an attempt is refused or ends behind the cut. -/
theorem Allows.isBeyond (h : p.Allows more s) (hends : p.ends = []) : s.IsBeyond := by
  cases s with
  | reads rest =>
    rcases h with ⟨v, hv, -⟩ | ⟨-, hrest⟩
    · rw [hends] at hv
      cases hv
    · exact hrest
  | refuses => exact trivial
  | unclear => exact h

/-- Where both are open, an attempt may be refused or end behind the cut. -/
theorem allows_of_isBeyond (h : s.IsBeyond) (hrefuses : p.refuses = true)
    (hcrosses : p.crosses = true) : p.Allows more s := by
  cases s with
  | reads rest => exact .inr ⟨hcrosses, h⟩
  | refuses => exact hrefuses
  | unclear => exact h

end Prospect

/-! ## Prospects of expressions -/

namespace Cut

/-- The prospect of an expression, if it has one; `call` gives those of the rules. -/
def prospect (c : Cut R) (g : Grammar R) (call : R → Mode → View → Option Prospect) (fuel : Nat)
    (mode : Mode) : Expr R → View → Option Prospect
  | .nothing, v => some ⟨[v], false, false⟩
  | .char isMember, v => Prospect.ofSight (c.char isMember v)
  | .text chars, v => Prospect.ofSight (c.strip false chars v)
  | .word chars, v => Prospect.ofSight (c.strip true chars v)
  | .rule r, v => call r mode v
  | .seq first second, v =>
    (c.prospect g call fuel mode first v).bind fun p =>
      p.andThen fun v => (c.skip? g mode v).bind (c.prospect g call fuel mode second)
  | .choice first second, v =>
    (c.prospect g call fuel mode first v).bind fun p =>
      p.orElse (c.prospect g call fuel mode second v)
  | .star item, v =>
    (c.prospect g call fuel mode item v).bind fun p =>
      p.repeated v (Prospect.again
        (fun v => (c.skip? g mode v).bind (c.prospect g call fuel mode item)) fuel)
  | .notAhead item, v =>
    (c.prospect g call fuel mode item v).map fun p =>
      ⟨if p.refuses then [v] else [], p.mayRead, false⟩
  | .ahead item, v =>
    (c.prospect g call fuel mode item v).map fun p =>
      ⟨if p.mayRead then [v] else [], p.refuses, false⟩

/-- The prospect of a rule, if it has one; `fuel` bounds the depth of calls. Of a rule that fills
the cut only this is open: it is refused, or ends behind the cut. -/
def ruleProspect (c : Cut R) (g : Grammar R) : Nat → R → Mode → View → Option Prospect
  | 0, _, _, _ => none
  | fuel + 1, r, mode, v =>
    if v = ⟨c.word, true⟩ ∧ c.fills r = true ∧ mode = .words then some ⟨[], true, true⟩
    else c.prospect g (c.ruleProspect g fuel) fuel ((g.production r).manner.bodyMode mode)
      (g.production r).body v

/-! ## Sights with high bounds -/

/-- What is known of an expression with every bound that is high enough. -/
def Sees (c : Cut R) (g : Grammar R) (mode : Mode) (e : Expr R) (v : View) (s : Sight) : Prop :=
  ∃ least, ∀ fuel, least ≤ fuel → c.expr g (c.rule g fuel) fuel mode e v = s

/-- What is known of a repetition, with blanks before it, with bounds that are high enough. -/
def SeesAgain (c : Cut R) (g : Grammar R) (mode : Mode) (item : Expr R) (v : View) (s : Sight) :
    Prop :=
  ∃ least, ∀ fuel count, least ≤ fuel → least ≤ count →
    repeatStep (fun v => ((c.skip? g mode v).map
      (c.expr g (c.rule g fuel) fuel mode item)).getD .unclear) count v = s

section Sees

variable {c : Cut R} {g : Grammar R} {mode : Mode} {first second item : Expr R}
  {v v₁ v₂ : View} {s : Sight}

/-- What does not depend on the bound is known. -/
theorem sees_of_eq {e : Expr R} (h : ∀ fuel, c.expr g (c.rule g fuel) fuel mode e v = s) :
    Sees c g mode e v s := ⟨0, fun fuel _ => h fuel⟩

/-- The second part goes on after the first and the blanks after it. -/
theorem Sees.seq (h : Sees c g mode first v (.reads v₁)) (hskip : c.skip? g mode v₁ = some v₂)
    (h' : Sees c g mode second v₂ s) : Sees c g mode (.seq first second) v s := by
  obtain ⟨n, hn⟩ := h
  obtain ⟨m, hm⟩ := h'
  refine ⟨max n m, fun fuel hfuel => ?_⟩
  unfold expr
  rw [hn fuel (by omega)]
  dsimp only
  rw [hskip]
  exact hm fuel (by omega)

/-- If the first part is refused, so are both. -/
theorem Sees.seq_left (h : Sees c g mode first v .refuses) :
    Sees c g mode (.seq first second) v .refuses := by
  obtain ⟨n, hn⟩ := h
  refine ⟨n, fun fuel hfuel => ?_⟩
  unfold expr
  rw [hn fuel hfuel]

/-- The first alternative is taken if it is read. -/
theorem Sees.choice_left (h : Sees c g mode first v (.reads v₁)) :
    Sees c g mode (.choice first second) v (.reads v₁) := by
  obtain ⟨n, hn⟩ := h
  refine ⟨n, fun fuel hfuel => ?_⟩
  unfold expr
  rw [hn fuel hfuel]

/-- The second alternative is tried if the first is refused. -/
theorem Sees.choice_right (h : Sees c g mode first v .refuses) (h' : Sees c g mode second v s) :
    Sees c g mode (.choice first second) v s := by
  obtain ⟨n, hn⟩ := h
  obtain ⟨m, hm⟩ := h'
  refine ⟨max n m, fun fuel hfuel => ?_⟩
  unfold expr
  rw [hn fuel (by omega)]
  exact hm fuel (by omega)

/-- A star of what is refused stays where it is. -/
theorem Sees.star_stop (h : Sees c g mode item v .refuses) :
    Sees c g mode (.star item) v (.reads v) := by
  obtain ⟨n, hn⟩ := h
  refine ⟨n, fun fuel hfuel => ?_⟩
  unfold expr
  rw [hn fuel hfuel]

/-- A star of what is read goes on with its repetition. -/
theorem Sees.star (h : Sees c g mode item v (.reads v₁)) (h' : SeesAgain c g mode item v₁ s) :
    Sees c g mode (.star item) v s := by
  obtain ⟨n, hn⟩ := h
  obtain ⟨m, hm⟩ := h'
  refine ⟨max n m, fun fuel hfuel => ?_⟩
  unfold expr
  rw [hn fuel (by omega)]
  exact hm fuel fuel (by omega) (by omega)

/-- A repetition of what is refused after blanks stays before them. -/
theorem SeesAgain.stop (hskip : c.skip? g mode v = some v₁) (h : Sees c g mode item v₁ .refuses) :
    SeesAgain c g mode item v (.reads v) := by
  obtain ⟨n, hn⟩ := h
  refine ⟨n + 1, fun fuel count hfuel hcount => ?_⟩
  obtain ⟨count, rfl⟩ : ∃ k, count = k + 1 := ⟨count - 1, by omega⟩
  unfold repeatStep
  rw [hskip, Option.map_some, Option.getD_some, hn fuel (by omega)]

/-- A repetition of what is read after blanks goes on after it. -/
theorem SeesAgain.more (hskip : c.skip? g mode v = some v₁)
    (h : Sees c g mode item v₁ (.reads v₂)) (h' : SeesAgain c g mode item v₂ s) :
    SeesAgain c g mode item v s := by
  obtain ⟨n, hn⟩ := h
  obtain ⟨m, hm⟩ := h'
  refine ⟨max n m + 1, fun fuel count hfuel hcount => ?_⟩
  obtain ⟨count, rfl⟩ : ∃ k, count = k + 1 := ⟨count - 1, by omega⟩
  unfold repeatStep
  rw [hskip, Option.map_some, Option.getD_some, hn fuel (by omega)]
  exact hm fuel count (by omega) (by omega)

/-- What is refused is not ahead. -/
theorem Sees.notAhead (h : Sees c g mode item v .refuses) :
    Sees c g mode (.notAhead item) v (.reads v) := by
  obtain ⟨n, hn⟩ := h
  refine ⟨n, fun fuel hfuel => ?_⟩
  unfold expr
  rw [hn fuel hfuel]

/-- What is read is ahead. -/
theorem Sees.notAhead_refuses (h : Sees c g mode item v (.reads v₁)) :
    Sees c g mode (.notAhead item) v .refuses := by
  obtain ⟨n, hn⟩ := h
  refine ⟨n, fun fuel hfuel => ?_⟩
  unfold expr
  rw [hn fuel hfuel]

/-- What is read is found ahead, and nothing is read. -/
theorem Sees.ahead (h : Sees c g mode item v (.reads v₁)) :
    Sees c g mode (.ahead item) v (.reads v) := by
  obtain ⟨n, hn⟩ := h
  refine ⟨n, fun fuel hfuel => ?_⟩
  unfold expr
  rw [hn fuel hfuel]

/-- What is refused is not found ahead. -/
theorem Sees.ahead_refuses (h : Sees c g mode item v .refuses) :
    Sees c g mode (.ahead item) v .refuses := by
  obtain ⟨n, hn⟩ := h
  refine ⟨n, fun fuel hfuel => ?_⟩
  unfold expr
  rw [hn fuel hfuel]

variable {r : R}

/-- What is known of the body of a rule is known of the rule, unless the rule fills the cut. -/
theorem Sees.rule (hfills : ¬(v = ⟨c.word, true⟩ ∧ c.fills r = true ∧ mode = .words))
    (h : Sees c g ((g.production r).manner.bodyMode mode) (g.production r).body v s) :
    Sees c g mode (.rule r) v s := by
  obtain ⟨n, hn⟩ := h
  refine ⟨n + 1, fun fuel hfuel => ?_⟩
  obtain ⟨fuel, rfl⟩ : ∃ k, fuel = k + 1 := ⟨fuel - 1, by omega⟩
  show c.rule g (fuel + 1) r mode v = s
  unfold Cut.rule
  rw [if_neg hfills]
  exact hn fuel (by omega)

/-- A rule that fills the cut ends behind it. -/
theorem sees_fills (hfills : c.fills r = true) :
    Sees c g .words (.rule r) ⟨c.word, true⟩ (.reads ⟨c.after, false⟩) := by
  refine ⟨1, fun fuel hfuel => ?_⟩
  obtain ⟨fuel, rfl⟩ : ∃ k, fuel = k + 1 := ⟨fuel - 1, by omega⟩
  show c.rule g (fuel + 1) r .words ⟨c.word, true⟩ = _
  unfold Cut.rule
  exact if_pos ⟨rfl, hfills, rfl⟩

end Sees

/-! ## Behind the cut -/

section Uncut

variable {c : Cut R} {g : Grammar R} {mode : Mode}

/-- Behind the cut characters in a row are looked for in the text. -/
theorem strip_uncut (ignoreCase : Bool) (chars cs : List Char) :
    c.strip ignoreCase chars ⟨cs, false⟩ =
      ((stripText? ignoreCase chars cs).map fun rest => Sight.reads ⟨rest, false⟩).getD .refuses := by
  induction chars generalizing cs with
  | nil => rfl
  | cons p chars ih =>
    cases cs with
    | nil => rfl
    | cons d cs =>
      unfold strip stripText?
      by_cases hd : (p = d || (ignoreCase && asciiLower p == asciiLower d)) = true
      · rw [if_pos hd, ← ih cs]
        unfold Cut.char
        dsimp only
        rw [if_pos hd]
      · rw [if_neg hd]
        unfold Cut.char
        dsimp only
        rw [if_neg hd]
        rfl

/-- Behind the cut blanks are skipped as in the text. -/
theorem skip?_uncut (cs : List Char) : c.skip? g mode ⟨cs, false⟩ = some ⟨g.skip mode cs, false⟩ := by
  cases mode <;> rfl

variable [g.HasBlanks]

/-- Behind the cut a repetition goes as on the text if its step does. -/
theorem repeatStep_uncut {step : View → Sight} {step' : State → Outcome R}
    (h : ∀ s : State, step ⟨s.rest, false⟩ = .ofOutcome (step' s)) (fuel : Nat) (s : State) :
    repeatStep step fuel ⟨s.rest, false⟩ = .ofOutcome (Peg.repeatStep step' fuel s) := by
  induction fuel generalizing s with
  | zero => rfl
  | succ fuel ih =>
    unfold repeatStep Peg.repeatStep
    rw [h]
    cases step' s with
    | failed blame | exhausted => rfl
    | matched nodes s₁ =>
      refine (ih s₁).trans ?_
      dsimp only
      cases Peg.repeatStep step' fuel s₁ <;> rfl

/-- Behind the cut an expression is matched as in the text, if the rules are. -/
theorem expr_uncut {call : R → Mode → View → Sight} {call' : R → Mode → State → Outcome R}
    (hcall : ∀ r mode (s : State), call r mode ⟨s.rest, false⟩ = .ofOutcome (call' r mode s))
    (fuel : Nat) (e : Expr R) (s : State) :
    c.expr g call fuel mode e ⟨s.rest, false⟩ = .ofOutcome (matchExpr g call' fuel mode e s) := by
  induction e generalizing s with
  | nothing => rfl
  | char isMember =>
    obtain ⟨cs, index, blame⟩ := s
    cases cs with
    | nil => rfl
    | cons d cs =>
      unfold expr matchExpr Cut.char
      dsimp only
      split <;> rfl
  | text chars | word chars =>
    unfold expr matchExpr
    rw [strip_uncut]
    split <;> rename_i hstrip <;> rw [hstrip] <;> rfl
  | rule r => exact hcall r mode s
  | seq first second ihFirst ihSecond =>
    unfold expr matchExpr
    rw [ihFirst]
    cases matchExpr g call' fuel mode first s with
    | failed blame | exhausted => rfl
    | matched nodes s₁ =>
      unfold Sight.ofOutcome
      dsimp only
      rw [skip?_uncut, ← rest_skipBlanks]
      refine (ihSecond _).trans ?_
      cases matchExpr g call' fuel mode second (skipBlanks g mode s₁) <;> rfl
  | choice first second ihFirst ihSecond =>
    unfold expr matchExpr
    rw [ihFirst]
    cases matchExpr g call' fuel mode first s with
    | failed blame => exact ihSecond { s with blame := blame }
    | matched nodes s₁ | exhausted => rfl
  | star item ih =>
    have hstep : ∀ s : State, ((c.skip? g mode ⟨s.rest, false⟩).map
        (c.expr g call fuel mode item)).getD .unclear =
          .ofOutcome (matchExpr g call' fuel mode item (skipBlanks g mode s)) := by
      intro s
      rw [skip?_uncut, Option.map_some, Option.getD_some, ← rest_skipBlanks]
      exact ih _
    unfold expr matchExpr
    rw [ih]
    cases matchExpr g call' fuel mode item s with
    | failed blame | exhausted => rfl
    | matched nodes s₁ =>
      refine (repeatStep_uncut hstep fuel s₁).trans ?_
      dsimp only
      cases Peg.repeatStep (fun s => matchExpr g call' fuel mode item (skipBlanks g mode s)) fuel s₁
        <;> rfl
  | notAhead item ih | ahead item ih =>
    unfold expr matchExpr
    rw [ih]
    cases matchExpr g call' fuel mode item s <;> rfl

/-- Behind the cut a rule is matched as in the text. -/
theorem rule_uncut (fuel : Nat) (r : R) (mode : Mode) (s : State) :
    c.rule g fuel r mode ⟨s.rest, false⟩ = .ofOutcome (matchRule g fuel r mode s) := by
  induction fuel generalizing r mode s with
  | zero => rfl
  | succ fuel ih =>
    unfold Cut.rule matchRule
    rw [if_neg fun h => Bool.noConfusion (congrArg View.isCut h.1), expr_uncut ih]
    dsimp only
    cases matchExpr g (matchRule g fuel) fuel ((g.production r).manner.bodyMode mode)
        (g.production r).body s with
    | matched nodes s₁ =>
      dsimp only
      split <;> rfl
    | failed blame | exhausted => rfl

variable {reads : R → Bool} {rank : R → Nat} {allowed : R → Bool} {e item : Expr R}

/-- In a guarded grammar an expression comes to an end behind the cut, and it reads a character if
it always does. -/
theorem sees_uncut (hg : g.IsGuarded reads rank) (he : e.isGuarded reads allowed = true)
    (cs : List Char) :
    Sees c g mode e ⟨cs, false⟩ .refuses ∨
      ∃ rest, Sees c g mode e ⟨cs, false⟩ (.reads ⟨rest, false⟩) ∧
        rest.length + (e.consumes reads).toNat ≤ cs.length := by
  let least := cs.length + (cs.length + 1) * g.ruleCount
  have hwithin : ∀ fuel, least ≤ fuel →
      matchExpr g (matchRule g fuel) fuel mode e ⟨cs, 0, 0⟩ ≠ .exhausted := by
    intro fuel hfuel
    have hcall : ∀ r mode (s : State), s.rest.length ≤ cs.length →
        matchRule g fuel r mode s ≠ .exhausted := by
      intro r mode s hs
      have hmul := Nat.mul_le_mul_right g.ruleCount hs
      have hrank := hg.rank_lt r
      have hleast : least = cs.length + (cs.length * g.ruleCount + g.ruleCount) := by
        rw [← Nat.succ_mul]
      exact matchRule_within hg (by omega)
    exact matchExpr_within (matchRule_uses hg.consumes fuel) he
      (Nat.le_trans (Nat.le_add_right _ _) hfuel) (fun r m s hs => hcall r m s (Nat.le_of_lt hs)) (fun r m s _ hs => hcall r m s hs)
  have hsees : Sees c g mode e ⟨cs, false⟩
      (.ofOutcome (matchExpr g (matchRule g least) least mode e ⟨cs, 0, 0⟩)) := by
    refine ⟨least, fun fuel hfuel => (expr_uncut (rule_uncut fuel) fuel e ⟨cs, 0, 0⟩).trans ?_⟩
    rw [matchExpr_mono (fun r m s hs => matchRule_mono hfuel hs) hfuel
      (hwithin least (Nat.le_refl _))]
  have huses : (matchExpr g (matchRule g least) least mode e ⟨cs, 0, 0⟩).Uses
      (e.consumes reads).toNat ⟨cs, 0, 0⟩ := matchExpr_uses (matchRule_uses hg.consumes least) e _
  cases hend : matchExpr g (matchRule g least) least mode e ⟨cs, 0, 0⟩ with
  | matched nodes s =>
    rw [hend] at hsees
    exact .inr ⟨s.rest, hsees, huses nodes s hend⟩
  | failed blame =>
    rw [hend] at hsees
    exact .inl hsees
  | exhausted => exact absurd hend (hwithin least (Nat.le_refl _))

/-- In a guarded grammar a repetition comes to an end behind the cut. -/
theorem seesAgain_uncut (hg : g.IsGuarded reads rank)
    (he : (Expr.star item).isGuarded reads allowed = true) (cs : List Char) :
    ∃ rest, SeesAgain c g mode item ⟨cs, false⟩ (.reads ⟨rest, false⟩) := by
  obtain ⟨hconsumes, hitem⟩ := Bool.and_eq_true_iff.mp he
  induction hlength : cs.length using Nat.strongRecOn generalizing cs with
  | _ length ih =>
    have hfirst : Sees c g mode item ⟨g.skip mode cs, false⟩ .refuses ∨ ∃ rest,
        Sees c g mode item ⟨g.skip mode cs, false⟩ (.reads ⟨rest, false⟩) ∧
          rest.length + (item.consumes reads).toNat ≤ (g.skip mode cs).length :=
      sees_uncut hg hitem (g.skip mode cs)
    rcases hfirst with hstop | ⟨rest, hread, hless⟩
    · exact ⟨cs, .stop (skip?_uncut cs) hstop⟩
    · rw [hconsumes, Bool.toNat_true] at hless
      have hskip : (g.skip mode cs).length ≤ cs.length := (skip_suffix mode cs).length_le
      obtain ⟨rest', hmore⟩ := ih rest.length (by omega) rest rfl
      exact ⟨rest', .more (skip?_uncut cs) hread hmore⟩

end Uncut

/-! ## Fronts -/

/-- A text that is cut goes on with more of it: the more starts with a character that is expected,
no blanks go on there, the rules that fill the cut are refused there or read across the last cut, and
the front has no prospect of the rules that fill the last cut where it ends in their word. -/
structure GoesOn (c last : Cut R) (g : Grammar R) (more : View) : Prop where
  head : ∀ isMember, c.heads.any isMember = false → last.char isMember more = .refuses
  blanks : ∀ seen, (∀ d ∈ c.heads, g.blanks (seen ++ [d]) = g.blanks seen) →
    g.blanks (seen ++ more.seen) = g.blanks seen ∧
      (more.isCut = true → ∀ d ∈ last.heads, g.blanks (seen ++ more.seen ++ [d]) = g.blanks seen)
  fills : ∀ r, c.fills r = true → ∃ s, s.IsBeyond ∧
    Sees last g .words (.rule r) (more.extend ⟨c.word, true⟩) s
  word : ∀ fuel r v p, last.fills r = true → more.extend v = ⟨last.word, true⟩ →
    c.ruleProspect g fuel r .words v = some p → v = ⟨c.word, true⟩ ∧ c.fills r = true

section Fronts

variable {c last : Cut R} {g : Grammar R} {more v v' : View} {mode : Mode}

/-- What is seen of a character in a front is seen in the text. -/
theorem GoesOn.char (h : c.GoesOn last g more) {isMember : Char → Bool}
    (hclear : c.char isMember v ≠ .unclear) :
    last.char isMember (more.extend v) = (c.char isMember v).extend more := by
  obtain ⟨seen, isCut⟩ := v
  cases seen with
  | cons d rest =>
    cases isCut <;> by_cases hd : isMember d = true <;>
      simp [Cut.char, View.extend, Sight.extend, hd]
  | nil =>
    cases isCut with
    | false => rfl
    | true =>
      cases hany : c.heads.any isMember with
      | true => exact absurd (if_pos hany) hclear
      | false =>
        have hfront : c.char isMember ⟨[], true⟩ = .refuses := if_neg (Bool.eq_false_iff.mp hany)
        rw [hfront]
        exact h.head isMember hany

/-- What is seen of characters in a row in a front is seen in the text. -/
theorem GoesOn.strip (h : c.GoesOn last g more) {ignoreCase : Bool} {chars : List Char}
    (hclear : c.strip ignoreCase chars v ≠ .unclear) :
    last.strip ignoreCase chars (more.extend v) = (c.strip ignoreCase chars v).extend more := by
  induction chars generalizing v with
  | nil => rfl
  | cons p chars ih =>
    unfold Cut.strip at hclear ⊢
    generalize (fun d => decide (p = d) || (ignoreCase && asciiLower p == asciiLower d)) = isMember
      at hclear ⊢
    have hfirst : c.char isMember v ≠ .unclear := by
      intro hunclear
      rw [hunclear] at hclear
      exact hclear rfl
    rw [h.char hfirst]
    cases hsight : c.char isMember v with
    | unclear => exact absurd hsight hfirst
    | refuses => rfl
    | reads v₁ =>
      rw [hsight] at hclear
      exact ih hclear

/-- The blanks that are skipped in a front are skipped in the text. -/
theorem GoesOn.skip? [g.HasBlanks] (h : c.GoesOn last g more)
    (hskip : c.skip? g mode v = some v') :
    last.skip? g mode (more.extend v) = some (more.extend v') := by
  obtain ⟨seen, isCut⟩ := v
  unfold Cut.skip? at hskip ⊢
  by_cases hmode : mode = .words
  · rw [if_pos hmode] at hskip ⊢
    split at hskip
    · cases hskip
    · rename_i hblanks
      cases hskip
      cases isCut with
      | false => rfl
      | true =>
        have hall : ∀ d ∈ c.heads, g.blanks (seen ++ [d]) = g.blanks seen := by
          rw [Bool.true_and, Bool.not_eq_true, List.any_eq_false] at hblanks
          exact fun d hd => not_not.mp fun hne => hblanks d hd (bne_iff_ne.mpr hne)
        obtain ⟨hsame, hlater⟩ := h.blanks seen hall
        have hnone : ¬(more.isCut && last.heads.any fun d =>
            g.blanks (seen ++ more.seen ++ [d]) != g.blanks (seen ++ more.seen)) = true := by
          rw [Bool.and_eq_true, List.any_eq_true]
          rintro ⟨hcut, d, hd, hne⟩
          exact bne_iff_ne.mp hne ((hlater hcut d hd).trans hsame.symm)
        have hle := Grammar.HasBlanks.blanks_le (g := g) seen
        refine (if_neg hnone).trans ?_
        show some (View.mk ((seen ++ more.seen).drop (g.blanks (seen ++ more.seen))) more.isCut) = _
        rw [hsame, List.drop_append_of_le_length hle]
        rfl
  · rw [if_neg hmode] at hskip ⊢
    cases hskip
    rfl

/-- One of the ways that a prospect lists is seen in the longer text. -/
def Meets (last : Cut R) (g : Grammar R) (more : View) (mode : Mode) (e : Expr R) (v : View)
    (p : Prospect) : Prop :=
  ∃ s, p.Allows more s ∧ Sees last g mode e (more.extend v) s

variable {reads : R → Bool} {rank : R → Nat} [g.HasBlanks] {p : Prospect}

/-- If one of the ways is seen of the item, one of the ways is seen of its repetition. -/
theorem again_meets (hg : g.IsGuarded reads rank) (h : c.GoesOn last g more) {item : Expr R}
    {allowed : R → Bool} (he : (Expr.star item).isGuarded reads allowed = true)
    {attempt : View → Option Prospect}
    (hitem : ∀ v p, attempt v = some p → last.Meets g more mode item v p) {fuel : Nat}
    (hp : Prospect.again (fun v => (c.skip? g mode v).bind attempt) fuel v = some p) :
    ∃ s, p.Allows more s ∧ SeesAgain last g mode item (more.extend v) s := by
  induction fuel generalizing v p with
  | zero => cases hp
  | succ fuel ih =>
    obtain ⟨p₁, hp₁, hrepeated⟩ := Option.bind_eq_some_iff.mp hp
    obtain ⟨v₁, hskip, hp₁⟩ := Option.bind_eq_some_iff.mp hp₁
    obtain ⟨s, hs, hsees⟩ := hitem v₁ p₁ hp₁
    have hskip := h.skip? hskip
    rcases Prospect.repeated_cases hrepeated hs with
      ⟨rfl, hstay⟩ | ⟨v₂, q, rfl, hq, hallows⟩ | ⟨cs, rfl, hcrosses⟩
    · exact ⟨_, hstay, .stop hskip hsees⟩
    · obtain ⟨s', hs', hmore⟩ := ih hq
      exact ⟨s', hallows s' hs', .more hskip hsees hmore⟩
    · obtain ⟨rest, hmore⟩ := seesAgain_uncut hg he cs
      exact ⟨.reads ⟨rest, false⟩, .inr ⟨hcrosses, rfl⟩, .more hskip hsees hmore⟩

/-- One of the ways is seen of an expression that has a prospect, if that holds of the rules. -/
theorem expr_meets (hg : g.IsGuarded reads rank) (h : c.GoesOn last g more)
    {call : R → Mode → View → Option Prospect} {fuel : Nat}
    (hcall : ∀ r mode v p, call r mode v = some p → last.Meets g more mode (.rule r) v p)
    {e : Expr R} {allowed : R → Bool} (he : e.isGuarded reads allowed = true)
    (hp : c.prospect g call fuel mode e v = some p) : last.Meets g more mode e v p := by
  induction e generalizing allowed v p with
  | nothing =>
    cases hp
    exact ⟨.reads (more.extend v), .inl ⟨v, List.mem_singleton_self v, rfl⟩, sees_of_eq fun _ => rfl⟩
  | char isMember =>
    have hclear := Prospect.ne_unclear_of_ofSight hp
    exact ⟨_, Prospect.allows_of_ofSight hp, sees_of_eq fun _ => h.char hclear⟩
  | text chars | word chars =>
    have hclear := Prospect.ne_unclear_of_ofSight hp
    exact ⟨_, Prospect.allows_of_ofSight hp, sees_of_eq fun _ => h.strip hclear⟩
  | rule r => exact hcall r mode v p hp
  | seq first second ihFirst ihSecond =>
    obtain ⟨hfirst, hsecond⟩ := Bool.and_eq_true_iff.mp he
    obtain ⟨p₁, hp₁, hthen⟩ := Option.bind_eq_some_iff.mp hp
    obtain ⟨s, hs, hsees⟩ := ihFirst hfirst hp₁
    rcases Prospect.andThen_cases hthen hs with
      ⟨rfl, hrefuses⟩ | ⟨v₁, q, rfl, hq, hallows⟩ | ⟨cs, rfl, hrefuses, hcrosses⟩
    · exact ⟨.refuses, hrefuses, hsees.seq_left⟩
    · obtain ⟨v₂, hskip, hq⟩ := Option.bind_eq_some_iff.mp hq
      obtain ⟨s', hs', hsees'⟩ := ihSecond hsecond hq
      exact ⟨s', hallows s' hs', hsees.seq (h.skip? hskip) hsees'⟩
    · have hskip : last.skip? g mode ⟨cs, false⟩ = some ⟨g.skip mode cs, false⟩ := skip?_uncut cs
      rcases sees_uncut hg hsecond (g.skip mode cs) with hsees' | ⟨rest, hsees', -⟩
      · exact ⟨.refuses, hrefuses, hsees.seq hskip hsees'⟩
      · exact ⟨.reads ⟨rest, false⟩, .inr ⟨hcrosses, rfl⟩, hsees.seq hskip hsees'⟩
  | choice first second ihFirst ihSecond =>
    obtain ⟨hfirst, hsecond⟩ := Bool.and_eq_true_iff.mp he
    obtain ⟨p₁, hp₁, helse⟩ := Option.bind_eq_some_iff.mp hp
    obtain ⟨s, hs, hsees⟩ := ihFirst hfirst hp₁
    unfold Prospect.orElse at helse
    split at helse
    · obtain ⟨q, hq, rfl⟩ := Option.map_eq_some_iff.mp helse
      cases s with
      | unclear => exact hs.elim
      | refuses =>
        obtain ⟨s', hs', hsees'⟩ := ihSecond hsecond hq
        exact ⟨s', hs'.mono (List.subset_append_right _ _) id (Bool.or_eq_true_iff.mpr ∘ .inr),
          hsees.choice_right hsees'⟩
      | reads rest =>
        refine ⟨.reads rest, ?_, hsees.choice_left⟩
        rcases hs with ⟨v₁, hv₁, hrest⟩ | ⟨hcrosses, hrest⟩
        · exact .inl ⟨v₁, List.mem_append_left _ hv₁, hrest⟩
        · exact .inr ⟨Bool.or_eq_true_iff.mpr (.inl hcrosses), hrest⟩
    · rename_i hnot
      cases helse
      cases s with
      | unclear => exact hs.elim
      | refuses => exact absurd hs hnot
      | reads rest => exact ⟨_, hs, hsees.choice_left⟩
  | star item ih =>
    obtain ⟨-, hitem⟩ := Bool.and_eq_true_iff.mp he
    obtain ⟨p₁, hp₁, hrepeated⟩ := Option.bind_eq_some_iff.mp hp
    obtain ⟨s, hs, hsees⟩ := ih hitem hp₁
    rcases Prospect.repeated_cases hrepeated hs with
      ⟨rfl, hstay⟩ | ⟨v₁, q, rfl, hq, hallows⟩ | ⟨cs, rfl, hcrosses⟩
    · exact ⟨_, hstay, hsees.star_stop⟩
    · obtain ⟨s', hs', hmore⟩ := again_meets hg h he (fun _ _ hp => ih hitem hp) hq
      exact ⟨s', hallows s' hs', hsees.star hmore⟩
    · obtain ⟨rest, hmore⟩ := seesAgain_uncut hg he cs
      exact ⟨.reads ⟨rest, false⟩, .inr ⟨hcrosses, rfl⟩, hsees.star hmore⟩
  | notAhead item ih =>
    obtain ⟨p₁, hp₁, rfl⟩ := Option.map_eq_some_iff.mp hp
    obtain ⟨s, hs, hsees⟩ := ih he hp₁
    cases s with
    | unclear => exact hs.elim
    | refuses =>
      refine ⟨.reads (more.extend v), .inl ⟨v, ?_, rfl⟩, hsees.notAhead⟩
      rw [if_pos (show p₁.refuses = true from hs)]
      exact List.mem_singleton_self v
    | reads rest => exact ⟨.refuses, hs.mayRead, hsees.notAhead_refuses⟩
  | ahead item ih =>
    obtain ⟨p₁, hp₁, rfl⟩ := Option.map_eq_some_iff.mp hp
    obtain ⟨s, hs, hsees⟩ := ih he hp₁
    cases s with
    | unclear => exact hs.elim
    | refuses => exact ⟨.refuses, hs, hsees.ahead_refuses⟩
    | reads rest =>
      refine ⟨.reads (more.extend v), .inl ⟨v, ?_, rfl⟩, hsees.ahead⟩
      rw [if_pos hs.mayRead]
      exact List.mem_singleton_self v

/-- One of the ways is seen of a rule that has a prospect. -/
theorem rule_meets (hg : g.IsGuarded reads rank) (h : c.GoesOn last g more) {fuel : Nat} {r : R}
    (hp : c.ruleProspect g fuel r mode v = some p) : last.Meets g more mode (.rule r) v p := by
  induction fuel generalizing r mode v p with
  | zero => cases hp
  | succ fuel ih =>
    have hrule := hp
    unfold ruleProspect at hp
    split at hp
    · rename_i hfills
      obtain ⟨rfl, hr, rfl⟩ := hfills
      cases hp
      obtain ⟨s, hs, hsees⟩ := h.fills r hr
      exact ⟨s, Prospect.allows_of_isBeyond hs rfl rfl, hsees⟩
    · rename_i hfills
      obtain ⟨s, hs, hsees⟩ := expr_meets hg h (fun _ _ _ _ hp => ih hp) (hg.guarded r) hp
      refine ⟨s, hs, .rule ?_ hsees⟩
      rintro ⟨hword, hr, rfl⟩
      obtain ⟨hv, hr⟩ := h.word (fuel + 1) r v p hr hword hrule
      exact hfills ⟨hv, hr, rfl⟩

end Fronts

end Cut

end RdfStore.Peg
