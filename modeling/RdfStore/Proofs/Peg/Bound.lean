import RdfStore.Peg.Match

/-!
# The bound of the work is never met

Matching never moves back. In a guarded grammar, what is repeated reads a character each
time, and a rule that is called before a character is read has a lower rank than its caller.
So calls nest at most as deep as there are ranks between two characters, and the bound that
`Grammar.parse` sets is never met. Below the bound, more of it changes nothing.
-/

set_option autoImplicit false

namespace RdfStore.Peg

variable {R : Type}

/-! ## What reads a character -/

/-- Whether every match of an expression reads a character, given the rules that do. -/
def Expr.consumes (reads : R → Bool) : Expr R → Bool
  | .nothing | .star _ | .notAhead _ | .ahead _ => false
  | .char _ => true
  | .text chars | .word chars => !chars.isEmpty
  | .rule r => reads r
  | .seq first second => first.consumes reads || second.consumes reads
  | .choice first second => first.consumes reads && second.consumes reads

/-- Whether repetitions read a character each time and only allowed rules are called before a
character is read. -/
def Expr.isGuarded (reads : R → Bool) : (R → Bool) → Expr R → Bool
  | _, .nothing | _, .char _ | _, .text _ | _, .word _ => true
  | allowed, .rule r => allowed r
  | allowed, .seq first second =>
    first.isGuarded reads allowed
      && second.isGuarded reads fun r => first.consumes reads || allowed r
  | allowed, .choice first second =>
    first.isGuarded reads allowed && second.isGuarded reads allowed
  | allowed, .star item => item.consumes reads && item.isGuarded reads allowed
  | allowed, .notAhead item | allowed, .ahead item => item.isGuarded reads allowed

/-- The rules that are said to read do, and every body is guarded by the ranks of rules. -/
structure Grammar.IsGuarded (g : Grammar R) (reads : R → Bool) (rank : R → Nat) : Prop where
  consumes : ∀ r, reads r = true → (g.production r).body.consumes reads = true
  guarded : ∀ r, (g.production r).body.isGuarded reads (fun q => decide (rank q < rank r)) = true
  rank_lt : ∀ r, rank r < g.ruleCount

/-- A match leaves at least so many characters less than there were. -/
def Outcome.Uses (count : Nat) (s : State) (o : Outcome R) : Prop :=
  ∀ nodes s', o = .matched nodes s' → s'.rest.length + count ≤ s.rest.length

/-- What uses up so many characters uses up fewer. -/
theorem Outcome.Uses.mono {count fewer : Nat} {s : State} {o : Outcome R} (h : o.Uses count s)
    (hle : fewer ≤ count) : o.Uses fewer s := fun nodes s' ho => by
  have := h nodes s' ho
  omega

/-- An attempt that met the bound uses nothing up. -/
theorem uses_exhausted (count : Nat) (s : State) :
    (Outcome.exhausted : Outcome R).Uses count s := fun _ _ h => nomatch h

/-- A match that stays in place uses nothing up. -/
theorem uses_stay (nodes : List (ParseTree R)) (s : State) (blame : Nat) :
    (Outcome.matched nodes { s with blame := blame }).Uses 0 s := by
  intro _ _ h
  cases h
  exact Nat.le_refl _

/-- What is left after a text was found at the start is shorter by the text. -/
theorem length_stripText? {ignoreCase : Bool} {chars cs rest : List Char}
    (h : stripText? ignoreCase chars cs = some rest) :
    rest.length + chars.length = cs.length := by
  induction chars generalizing cs with
  | nil =>
    cases h
    rfl
  | cons p ps ih =>
    cases cs with
    | nil => cases h
    | cons c cs =>
      unfold stripText? at h
      split at h
      · rw [List.length_cons, List.length_cons, ← ih h]
        rfl
      · cases h

/-- Skipping does not move back. -/
theorem length_skip_le (s : State) (count : Nat) : (s.skip count).rest.length ≤ s.rest.length := by
  unfold State.skip
  split
  · exact Nat.le_refl _
  · rw [List.length_drop]
    exact Nat.sub_le _ _

/-- Nor does skipping blanks. -/
theorem length_skipBlanks_le (g : Grammar R) (mode : Mode) (s : State) :
    (skipBlanks g mode s).rest.length ≤ s.rest.length := by
  cases mode with
  | words => exact length_skip_le s _
  | token | compound => exact Nat.le_refl _

section Uses

variable {g : Grammar R} {call : R → Mode → State → Outcome R} {fuel : Nat} {mode : Mode}
  {reads : R → Bool}

/-- Repeating a step that never moves back does not move back. -/
theorem repeatStep_uses {step : State → Outcome R} (h : ∀ s, (step s).Uses 0 s) (fuel : Nat)
    (s : State) : (repeatStep step fuel s).Uses 0 s := by
  induction fuel generalizing s with
  | zero => exact uses_exhausted 0 s
  | succ fuel ih =>
    intro nodes s' hs'
    unfold repeatStep at hs'
    split at hs'
    · rename_i first s₁ hfirst
      have h₁ := h s first s₁ hfirst
      split at hs'
      · rename_i more s₂ hmore
        have h₂ := ih s₁ more s₂ hmore
        cases hs'
        omega
      · rename_i hmore
        exact absurd hs' (hmore nodes s')
    · exact uses_stay [] s _ nodes s' hs'
    · cases hs'

/-- A character that matches is used up. -/
theorem char_uses (isMember : Char → Bool) (s : State) :
    (matchExpr g call fuel mode (.char isMember) s).Uses 1 s := by
  intro nodes s' hs'
  unfold matchExpr at hs'
  split at hs'
  · rename_i c rest hrest
    split at hs'
    · cases hs'
      rw [hrest]
      exact Nat.le_refl _
    · cases hs'
  · cases hs'

/-- A text that was found at the start is used up. -/
theorem stripped_uses {ignoreCase : Bool} {chars rest : List Char} {s : State}
    (h : stripText? ignoreCase chars s.rest = some rest) :
    rest.length + (!chars.isEmpty).toNat ≤ s.rest.length := by
  have hlength := length_stripText? h
  cases chars with
  | nil => exact Nat.le_of_eq hlength
  | cons c others =>
    rw [List.length_cons] at hlength
    show rest.length + 1 ≤ _
    omega

variable {first second item : Expr R} {count more : Nat}

/-- One expression and then the other use up what both do. -/
theorem seq_uses (hfirst : ∀ s, (matchExpr g call fuel mode first s).Uses count s)
    (hsecond : ∀ s, (matchExpr g call fuel mode second s).Uses more s) (s : State) :
    (matchExpr g call fuel mode (.seq first second) s).Uses (count + more) s := by
  intro nodes s' hs'
  unfold matchExpr at hs'
  split at hs'
  · rename_i nodes₁ s₁ h₁
    split at hs'
    · rename_i nodes₂ s₂ h₂
      have huse := hfirst s nodes₁ s₁ h₁
      have huse' := hsecond _ nodes₂ s₂ h₂
      have hblanks := length_skipBlanks_le g mode s₁
      cases hs'
      omega
    · rename_i hmore
      exact absurd hs' (hmore nodes s')
  · rename_i hmore
    exact absurd hs' (hmore nodes s')

/-- A choice uses up what both expressions do. -/
theorem choice_uses (hfirst : ∀ s, (matchExpr g call fuel mode first s).Uses count s)
    (hsecond : ∀ s, (matchExpr g call fuel mode second s).Uses count s) (s : State) :
    (matchExpr g call fuel mode (.choice first second) s).Uses count s := by
  intro nodes s' hs'
  unfold matchExpr at hs'
  split at hs'
  · rename_i blame _
    exact hsecond { s with blame := blame } nodes s' hs'
  · exact hfirst s nodes s' hs'

/-- Repeating an expression does not move back. -/
theorem star_uses (h : ∀ s, (matchExpr g call fuel mode item s).Uses 0 s) (s : State) :
    (matchExpr g call fuel mode (.star item) s).Uses 0 s := by
  have hstep : ∀ s, (matchExpr g call fuel mode item (skipBlanks g mode s)).Uses 0 s := by
    intro s nodes s' hs'
    have huse := h (skipBlanks g mode s) nodes s' hs'
    have hblanks := length_skipBlanks_le g mode s
    omega
  intro nodes s' hs'
  unfold matchExpr at hs'
  split at hs'
  · rename_i nodes₁ s₁ h₁
    have hfirst := h s nodes₁ s₁ h₁
    split at hs'
    · rename_i nodes₂ s₂ h₂
      have hrest := repeatStep_uses hstep fuel s₁ nodes₂ s₂ h₂
      cases hs'
      show s'.rest.length + 0 ≤ _
      omega
    · rename_i hmore
      exact absurd hs' (hmore nodes s')
  · exact uses_stay [] s _ nodes s' hs'
  · cases hs'

/-- An expression that reads a character uses one up, given that the rules do. -/
theorem matchExpr_uses (h : ∀ r mode s, (call r mode s).Uses (reads r).toNat s) (e : Expr R)
    (s : State) : (matchExpr g call fuel mode e s).Uses (e.consumes reads).toNat s := by
  induction e generalizing s with
  | nothing => exact uses_stay [] s s.blame
  | char isMember => exact char_uses isMember s
  | text chars | word chars =>
    intro nodes s' hs'
    unfold matchExpr at hs'
    split at hs'
    · rename_i rest hrest
      cases hs'
      exact stripped_uses hrest
    · cases hs'
  | rule r => exact h r mode s
  | seq first second ihFirst ihSecond =>
    have hsum : ∀ a b : Bool, (a || b).toNat ≤ a.toNat + b.toNat := by decide
    exact (seq_uses ihFirst ihSecond s).mono (hsum _ _)
  | choice first second ihFirst ihSecond =>
    have hleft : ∀ a b : Bool, (a && b).toNat ≤ a.toNat := by decide
    have hright : ∀ a b : Bool, (a && b).toNat ≤ b.toNat := by decide
    exact choice_uses (fun s => (ihFirst s).mono (hleft _ _))
      (fun s => (ihSecond s).mono (hright _ _)) s
  | star item ih => exact star_uses (fun s => (ih s).mono (Nat.zero_le _)) s
  | notAhead item _ | ahead item _ =>
    intro nodes s' hs'
    unfold matchExpr at hs'
    split at hs' <;> first | exact uses_stay [] s s.blame nodes s' hs' | cases hs'

end Uses

/-- A rule that reads a character uses one up. -/
theorem matchRule_uses {g : Grammar R} {reads : R → Bool}
    (h : ∀ r, reads r = true → (g.production r).body.consumes reads = true) (fuel : Nat) (r : R)
    (mode : Mode) (s : State) : (matchRule g fuel r mode s).Uses (reads r).toNat s := by
  induction fuel generalizing r mode s with
  | zero => exact uses_exhausted _ s
  | succ fuel ih =>
    intro nodes s' hs'
    unfold matchRule at hs'
    dsimp only at hs'
    split at hs'
    · rename_i inner s₁ hbody
      have hsame : s₁ = s' := by
        split at hs' <;> cases hs' <;> rfl
      have huses := matchExpr_uses ih (g.production r).body s inner s₁ hbody
      rw [← hsame]
      cases hr : reads r with
      | false => exact Nat.le_trans (Nat.le_add_right _ _) huses
      | true =>
        rw [h r hr] at huses
        exact huses
    · cases hs'
    · cases hs'

/-! ## Within the bound -/

/-- Repetition stays within its bound if every step does and reads a character, and there are
fewer characters than the bound. -/
theorem repeatStep_within {step : State → Outcome R} {fuel : Nat} {s : State}
    (huses : ∀ s, (step s).Uses 1 s)
    (hstep : ∀ s', s'.rest.length ≤ s.rest.length → step s' ≠ .exhausted)
    (hfuel : s.rest.length < fuel) : repeatStep step fuel s ≠ .exhausted := by
  induction fuel generalizing s with
  | zero => exact absurd hfuel (Nat.not_lt_zero _)
  | succ fuel ih =>
    unfold repeatStep
    split
    · rename_i nodes s₁ h₁
      have hless := huses s nodes s₁ h₁
      have hrest : repeatStep step fuel s₁ ≠ .exhausted :=
        ih (fun s' hs' => hstep s' (by omega)) (by omega)
      split
      · exact nofun
      · exact hrest
    · exact nofun
    · rename_i h
      exact absurd h (hstep s (Nat.le_refl _))

section Within

variable {g : Grammar R} {call : R → Mode → State → Outcome R} {fuel : Nat} {mode : Mode}
  {reads : R → Bool} {first second item : Expr R} {s : State}

/-- One expression and then the other stay within the bound if the first does, and the second after
it. -/
theorem seq_within_iff : matchExpr g call fuel mode (.seq first second) s ≠ .exhausted ↔
    matchExpr g call fuel mode first s ≠ .exhausted ∧
      ∀ nodes s₁, matchExpr g call fuel mode first s = .matched nodes s₁ →
        matchExpr g call fuel mode second (skipBlanks g mode s₁) ≠ .exhausted := by
  rw [matchExpr]
  cases matchExpr g call fuel mode first s with
  | matched nodes s₁ =>
    constructor
    · refine fun h => ⟨nofun, fun nodes' s' heq hsecond => ?_⟩
      cases heq
      dsimp only at h
      rw [hsecond] at h
      exact h rfl
    · rintro ⟨-, hsecond⟩
      dsimp only
      split
      · exact nofun
      · exact hsecond nodes s₁ rfl
  | failed blame => exact ⟨fun _ => ⟨nofun, nofun⟩, fun _ => nofun⟩
  | exhausted => exact ⟨fun h => absurd rfl h, fun h => absurd rfl h.1⟩

/-- A star stays within the bound if its expression does, and its repetition after it. -/
theorem star_within_iff : matchExpr g call fuel mode (.star item) s ≠ .exhausted ↔
    matchExpr g call fuel mode item s ≠ .exhausted ∧
      ∀ nodes s₁, matchExpr g call fuel mode item s = .matched nodes s₁ →
        repeatStep (fun s => matchExpr g call fuel mode item (skipBlanks g mode s)) fuel s₁ ≠
          .exhausted := by
  rw [matchExpr]
  cases matchExpr g call fuel mode item s with
  | matched nodes s₁ =>
    constructor
    · refine fun h => ⟨nofun, fun nodes' s' heq hrest => ?_⟩
      cases heq
      dsimp only at h
      rw [hrest] at h
      exact h rfl
    · rintro ⟨-, hrest⟩
      dsimp only
      split
      · exact nofun
      · exact hrest nodes s₁ rfl
  | failed blame => exact ⟨fun _ => ⟨nofun, nofun⟩, fun _ => nofun⟩
  | exhausted => exact ⟨fun h => absurd rfl h, fun h => absurd rfl h.1⟩

/-- A guarded expression stays within the bound if the rules do that it may call: any rule past
the next character, and the allowed ones here. -/
theorem matchExpr_within (huses : ∀ r mode s, (call r mode s).Uses (reads r).toNat s)
    {e : Expr R} {allowed : R → Bool} (he : e.isGuarded reads allowed = true) {s : State}
    (hfuel : s.rest.length ≤ fuel)
    (hlater : ∀ r mode s', s'.rest.length < s.rest.length → call r mode s' ≠ .exhausted)
    (hhere : ∀ r mode s', allowed r = true → s'.rest.length ≤ s.rest.length →
      call r mode s' ≠ .exhausted) : matchExpr g call fuel mode e s ≠ .exhausted := by
  induction e generalizing allowed s with
  | nothing => exact nofun
  | char isMember =>
    unfold matchExpr
    split
    · split <;> exact nofun
    · exact nofun
  | text chars | word chars =>
    unfold matchExpr
    split <;> exact nofun
  | rule r => exact hhere r mode s he (Nat.le_refl _)
  | seq first second ihFirst ihSecond =>
    obtain ⟨hfirst, hsecond⟩ := Bool.and_eq_true_iff.mp he
    refine seq_within_iff.mpr ⟨ihFirst hfirst hfuel hlater hhere, fun nodes s₁ hs₁ => ?_⟩
    have huse := matchExpr_uses huses first s nodes s₁ hs₁
    have hblanks := length_skipBlanks_le g mode s₁
    refine ihSecond hsecond (by omega) (fun r m s' hs' => hlater r m s' (by omega)) ?_
    -- past a character every rule may be called, otherwise the allowed ones
    intro r m s' hr hs'
    rcases Bool.or_eq_true_iff.mp hr with hconsumes | hallowed
    · rw [hconsumes, Bool.toNat_true] at huse
      exact hlater r m s' (by omega)
    · exact hhere r m s' hallowed (by omega)
  | choice first second ihFirst ihSecond =>
    obtain ⟨hfirst, hsecond⟩ := Bool.and_eq_true_iff.mp he
    unfold matchExpr
    split
    · exact ihSecond hsecond hfuel hlater hhere
    · exact ihFirst hfirst hfuel hlater hhere
  | star item ih =>
    obtain ⟨hconsumes, hitem⟩ := Bool.and_eq_true_iff.mp he
    have huse : ∀ s, (matchExpr g call fuel mode item s).Uses 1 s := by
      intro s
      have hitem : (matchExpr g call fuel mode item s).Uses (item.consumes reads).toNat s :=
        matchExpr_uses huses item s
      rwa [hconsumes] at hitem
    refine star_within_iff.mpr ⟨ih hitem hfuel hlater hhere, fun nodes s₁ hs₁ => ?_⟩
    have hless := huse s nodes s₁ hs₁
    refine repeatStep_within ?_ ?_ (by omega)
    · intro s' nodes s'' hs''
      have huse := huse _ nodes s'' hs''
      have hblanks := length_skipBlanks_le g mode s'
      omega
    · intro s' hs'
      have hblanks := length_skipBlanks_le g mode s'
      exact ih hitem (by omega) (fun r m t ht => hlater r m t (by omega))
        fun r m t hr ht => hhere r m t hr (by omega)
  | notAhead item ih | ahead item ih =>
    have h := ih he hfuel hlater hhere
    unfold matchExpr
    split
    · exact nofun
    · exact nofun
    · rename_i hitem
      exact absurd hitem h

end Within

variable {g : Grammar R} {reads : R → Bool} {rank : R → Nat}

/-- A rule of a guarded grammar stays within a bound of as many calls for each character as
there are rules, and as many more as its rank. -/
theorem matchRule_within (hg : g.IsGuarded reads rank) {fuel : Nat} {r : R} {mode : Mode}
    {s : State} (hfuel : s.rest.length * g.ruleCount + rank r < fuel) :
    matchRule g fuel r mode s ≠ .exhausted := by
  induction fuel generalizing r mode s with
  | zero => exact absurd hfuel (Nat.not_lt_zero _)
  | succ fuel ih =>
    have hcount : s.rest.length ≤ s.rest.length * g.ruleCount :=
      Nat.le_mul_of_pos_right _ (Nat.lt_of_le_of_lt (Nat.zero_le _) (hg.rank_lt r))
    have hbody : matchExpr g (matchRule g fuel) fuel ((g.production r).manner.bodyMode mode)
        (g.production r).body s ≠ .exhausted := by
      refine matchExpr_within (matchRule_uses hg.consumes fuel) (hg.guarded r) (by omega) ?_ ?_
      · intro q m s' hs'
        have hmul := Nat.mul_le_mul_right g.ruleCount (Nat.succ_le_of_lt hs')
        have hrank := hg.rank_lt q
        rw [Nat.succ_mul] at hmul
        exact ih (by omega)
      · intro q m s' hq hs'
        have hmul := Nat.mul_le_mul_right g.ruleCount hs'
        have hrank := of_decide_eq_true hq
        exact ih (by omega)
    unfold matchRule
    dsimp only
    split
    · split <;> exact nofun
    · exact nofun
    · rename_i h
      exact absurd h hbody

/-! ## Above the bound -/

/-- What a step that may give more than another gives within the bound of the other, repetition
gives as well. -/
theorem repeatStep_mono {step more : State → Outcome R} {fuel fuel' : Nat} {s : State}
    (hstep : ∀ s, step s ≠ .exhausted → more s = step s) (hfuel : fuel ≤ fuel')
    (h : repeatStep step fuel s ≠ .exhausted) :
    repeatStep more fuel' s = repeatStep step fuel s := by
  induction fuel generalizing fuel' s with
  | zero => exact absurd rfl h
  | succ fuel ih =>
    obtain ⟨fuel', rfl⟩ : ∃ n, fuel' = n + 1 := ⟨fuel' - 1, by omega⟩
    have hfirst : step s ≠ .exhausted := by
      intro he
      unfold repeatStep at h
      rw [he] at h
      exact h rfl
    unfold repeatStep at h ⊢
    rw [hstep s hfirst]
    cases hs : step s with
    | matched nodes s₁ =>
      rw [hs] at h
      have hrest : repeatStep step fuel s₁ ≠ .exhausted := by
        intro he
        dsimp only at h
        rw [he] at h
        exact h rfl
      dsimp only
      rw [ih (by omega) hrest]
    | failed blame => rfl
    | exhausted => rfl

/-- Calls that may give more, and a higher bound, change nothing within the bound. -/
theorem matchExpr_mono {call more : R → Mode → State → Outcome R} {fuel fuel' : Nat}
    {mode : Mode} (hcall : ∀ r mode s, call r mode s ≠ .exhausted → more r mode s = call r mode s)
    (hfuel : fuel ≤ fuel') {e : Expr R} {s : State}
    (h : matchExpr g call fuel mode e s ≠ .exhausted) :
    matchExpr g more fuel' mode e s = matchExpr g call fuel mode e s := by
  induction e generalizing s with
  | nothing => rfl
  | char isMember => rfl
  | text chars => rfl
  | word chars => rfl
  | rule r => exact hcall r mode s h
  | seq first second ihFirst ihSecond =>
    obtain ⟨hfirst, hsecond⟩ := seq_within_iff.mp h
    rw [matchExpr, matchExpr, ihFirst hfirst]
    cases hs : matchExpr g call fuel mode first s with
    | matched nodes s₁ =>
      dsimp only
      rw [ihSecond (hsecond nodes s₁ hs)]
    | failed blame | exhausted => rfl
  | choice first second ihFirst ihSecond =>
    unfold matchExpr at h ⊢
    cases hs : matchExpr g call fuel mode first s with
    | matched nodes s₁ => rw [ihFirst (by rw [hs]; exact nofun), hs]
    | failed blame =>
      rw [hs] at h
      rw [ihFirst (by rw [hs]; exact nofun), hs]
      exact ihSecond h
    | exhausted =>
      rw [hs] at h
      exact absurd rfl h
  | star item ih =>
    obtain ⟨hitem, hrest⟩ := star_within_iff.mp h
    rw [matchExpr, matchExpr, ih hitem]
    cases hs : matchExpr g call fuel mode item s with
    | matched nodes s₁ =>
      dsimp only
      rw [repeatStep_mono (fun s hs => ih hs) hfuel (hrest nodes s₁ hs)]
    | failed blame | exhausted => rfl
  | notAhead item ih | ahead item ih =>
    unfold matchExpr at h ⊢
    cases hs : matchExpr g call fuel mode item s with
    | matched nodes s₁ => rw [ih (by rw [hs]; exact nofun), hs]
    | failed blame => rw [ih (by rw [hs]; exact nofun), hs]
    | exhausted =>
      rw [hs] at h
      exact absurd rfl h

/-- A higher bound changes nothing within the bound. -/
theorem matchRule_mono {fuel fuel' : Nat} (hfuel : fuel ≤ fuel') {r : R} {mode : Mode}
    {s : State} (h : matchRule g fuel r mode s ≠ .exhausted) :
    matchRule g fuel' r mode s = matchRule g fuel r mode s := by
  induction fuel generalizing fuel' r mode s with
  | zero => exact absurd rfl h
  | succ fuel ih =>
    obtain ⟨fuel', rfl⟩ : ∃ n, fuel' = n + 1 := ⟨fuel' - 1, by omega⟩
    have hle : fuel ≤ fuel' := by omega
    have hbody : matchExpr g (matchRule g fuel) fuel ((g.production r).manner.bodyMode mode)
        (g.production r).body s ≠ .exhausted := by
      intro he
      unfold matchRule at h
      dsimp only at h
      rw [he] at h
      exact h rfl
    unfold matchRule
    dsimp only
    rw [matchExpr_mono (fun r m s hs => ih hle hs) hle hbody]

end RdfStore.Peg
