import RdfStore.Peg.Match

/-!
# The characters of tokens

Where no blanks are skipped, a match reads characters of the classes and texts of its expression,
in the rules that it calls as well. So the text of a token has no other characters.
-/

set_option autoImplicit false

namespace RdfStore.Peg

open RdfStore.Text

variable {R : Type} {g : Grammar R}

/-- A character that an expression can read. -/
inductive MayRead (g : Grammar R) : Expr R → Char → Prop where
  | char {isMember : Char → Bool} {c : Char} (h : isMember c = true) :
    MayRead g (.char isMember) c
  | text {chars : List Char} {c : Char} (h : c ∈ chars) : MayRead g (.text chars) c
  | word {chars : List Char} {c : Char} (h : ∃ p ∈ chars, asciiLower p = asciiLower c) :
    MayRead g (.word chars) c
  | rule {r : R} {c : Char} (h : MayRead g (g.production r).body c) : MayRead g (.rule r) c
  | first {first second : Expr R} {c : Char} (h : MayRead g first c) :
    MayRead g (.seq first second) c
  | second {first second : Expr R} {c : Char} (h : MayRead g second c) :
    MayRead g (.seq first second) c
  | left {first second : Expr R} {c : Char} (h : MayRead g first c) :
    MayRead g (.choice first second) c
  | right {first second : Expr R} {c : Char} (h : MayRead g second c) :
    MayRead g (.choice first second) c
  | item {item : Expr R} {c : Char} (h : MayRead g item c) : MayRead g (.star item) c

/-- At every depth, the texts of tokens have characters that their rules read. -/
inductive IsSpelled (g : Grammar R) : ParseTree R → Prop where
  | node {r : R} {start : Nat} {text : List Char} {children : List (ParseTree R)}
    (htext : (g.production r).manner = .token → ∀ c ∈ text, MayRead g (g.production r).body c)
    (hchildren : ∀ child ∈ children, IsSpelled g child) :
    IsSpelled g (.node r start text children)

/-- The children of a spelled tree are spelled. -/
theorem IsSpelled.children {tree : ParseTree R} (h : IsSpelled g tree) :
    ∀ child ∈ tree.children, IsSpelled g child := by
  cases h with
  | node _ hchildren => exact hchildren

/-- The text of a spelled token has only characters that its rule may read. -/
theorem IsSpelled.text {tree : ParseTree R} (h : IsSpelled g tree)
    (htoken : (g.production tree.rule).manner = .token) :
    ∀ c ∈ tree.text, MayRead g (g.production tree.rule).body c := by
  cases h with
  | node htext _ => exact htext htoken

/-! ## Matches read what their expressions can read -/

/-- From one state to another an expression reads characters that it can read. -/
def ReadsOnly (g : Grammar R) (e : Expr R) (s s' : State) : Prop :=
  ∃ read, s.rest = read ++ s'.rest ∧ s'.index = s.index + read.length ∧ ∀ c ∈ read, MayRead g e c

/-- A match leaves spelled nodes and, where no blanks are skipped, reads only what it can. -/
def Outcome.Spells (g : Grammar R) (mode : Mode) (e : Expr R) (s : State) (o : Outcome R) : Prop :=
  ∀ nodes s', o = .matched nodes s' →
    (∀ node ∈ nodes, IsSpelled g node) ∧ (mode ≠ .words → ReadsOnly g e s s')

/-- Only between words blanks are skipped. -/
theorem skipBlanks_of_ne {mode : Mode} (h : mode ≠ .words) (s : State) :
    skipBlanks g mode s = s := by
  cases mode with
  | words => exact absurd rfl h
  | token | compound => rfl

/-- Where nothing is read only the blame may change. -/
theorem readsOnly_stay (e : Expr R) (s : State) (blame : Nat) :
    ReadsOnly g e s { s with blame := blame } :=
  ⟨[], rfl, rfl, fun _ hc => absurd hc List.not_mem_nil⟩

/-- What reads only some characters reads only more of them. -/
theorem ReadsOnly.mono {e e' : Expr R} {s s' : State} (h : ReadsOnly g e s s')
    (hmono : ∀ c, MayRead g e c → MayRead g e' c) : ReadsOnly g e' s s' := by
  obtain ⟨read, hrest, hindex, hread⟩ := h
  exact ⟨read, hrest, hindex, fun c hc => hmono c (hread c hc)⟩

/-- Two steps that read only some characters do so together. -/
theorem ReadsOnly.trans {e : Expr R} {s s₁ s₂ : State} (h : ReadsOnly g e s s₁)
    (h' : ReadsOnly g e s₁ s₂) : ReadsOnly g e s s₂ := by
  obtain ⟨read, hrest, hindex, hread⟩ := h
  obtain ⟨more, hrest', hindex', hmore⟩ := h'
  refine ⟨read ++ more, by simp [hrest, hrest'], ?_, fun c hc => ?_⟩
  · rw [List.length_append]
    omega
  · exact (List.mem_append.mp hc).elim (hread c) (hmore c)

/-- What was stripped off, its length, and where its characters come from. -/
theorem exists_of_stripText? {ignoreCase : Bool} {chars cs rest : List Char}
    (h : stripText? ignoreCase chars cs = some rest) :
    ∃ read, cs = read ++ rest ∧ read.length = chars.length ∧
      ∀ c ∈ read, ∃ p ∈ chars, p = c ∨ (ignoreCase = true ∧ asciiLower p = asciiLower c) := by
  induction chars generalizing cs with
  | nil =>
    cases h
    exact ⟨[], rfl, rfl, fun _ hc => absurd hc List.not_mem_nil⟩
  | cons p ps ih =>
    cases cs with
    | nil => cases h
    | cons c cs =>
      unfold stripText? at h
      split at h
      · rename_i hhead
        obtain ⟨read, rfl, hlength, hread⟩ := ih h
        refine ⟨c :: read, rfl, by simp [hlength], fun d hd => ?_⟩
        rcases List.mem_cons.mp hd with rfl | hd
        · exact ⟨p, List.mem_cons_self, by simpa using hhead⟩
        · obtain ⟨q, hq, hsame⟩ := hread d hd
          exact ⟨q, List.mem_cons_of_mem _ hq, hsame⟩
      · cases h

section Match

variable {call : R → Mode → State → Outcome R} {fuel : Nat} {mode : Mode} {item : Expr R}

/-- A match that leaves no trees spells what it reads. -/
theorem spells_nil {e : Expr R} {s s' : State} (h : ReadsOnly g e s s') :
    (Outcome.matched [] s').Spells g mode e s := by
  rintro nodes s'' ⟨⟩
  exact ⟨fun _ hnode => absurd hnode List.not_mem_nil, fun _ => h⟩

/-- The nodes of two matches that follow each other, and what they read. -/
theorem spells_append {e : Expr R} {s s₁ s₂ : State} {nodes more : List (ParseTree R)}
    (hnodes : ∀ node ∈ nodes, IsSpelled g node) (hmore : ∀ node ∈ more, IsSpelled g node)
    (hread : mode ≠ .words → ReadsOnly g e s s₁)
    (hread' : mode ≠ .words → ReadsOnly g e (skipBlanks g mode s₁) s₂) :
    (Outcome.matched (nodes ++ more) s₂).Spells g mode e s := by
  rintro all s' ⟨⟩
  refine ⟨fun node hnode => ?_, fun hmode => ?_⟩
  · exact (List.mem_append.mp hnode).elim (hnodes node) (hmore node)
  · have hsecond := hread' hmode
    rw [skipBlanks_of_ne hmode] at hsecond
    exact (hread hmode).trans hsecond

/-- A repetition spells what it reads if each step does. -/
theorem repeatStep_spells
    (h : ∀ s, (matchExpr g call fuel mode item s).Spells g mode (.star item) s) (bound : Nat)
    (s : State) :
    (repeatStep (fun s => matchExpr g call fuel mode item (skipBlanks g mode s)) bound s).Spells
      g mode (.star item) (skipBlanks g mode s) := by
  induction bound generalizing s with
  | zero => exact nofun
  | succ bound ih =>
    intro nodes s' hs'
    unfold repeatStep at hs'
    split at hs'
    · rename_i front s₁ hfront
      obtain ⟨hnodes, hread⟩ := h _ front s₁ hfront
      split at hs'
      · rename_i rest s₂ hrest
        obtain ⟨hmore, hread'⟩ := ih s₁ rest s₂ hrest
        exact spells_append hnodes hmore hread hread' nodes s' hs'
      · rename_i hrest
        exact absurd hs' (hrest nodes s')
    · cases hs'
      refine ⟨fun _ hnode => absurd hnode List.not_mem_nil, fun hmode => ?_⟩
      rw [skipBlanks_of_ne hmode]
      exact readsOnly_stay _ s _
    · cases hs'

/-- If calls leave spelled nodes and read what they can, so do expressions. -/
theorem matchExpr_spells (hcall : ∀ r mode s, (call r mode s).Spells g mode (.rule r) s)
    (e : Expr R) (s : State) : (matchExpr g call fuel mode e s).Spells g mode e s := by
  induction e generalizing s with
  | nothing => exact spells_nil (readsOnly_stay _ s _)
  | char isMember =>
    unfold matchExpr
    split
    · rename_i c rest hrest
      split
      · rename_i hmember
        refine spells_nil ⟨[c], hrest, rfl, fun d hd => ?_⟩
        rw [List.mem_singleton.mp hd]
        exact .char hmember
      · exact nofun
    · exact nofun
  | text chars =>
    unfold matchExpr
    split
    · rename_i rest hstrip
      obtain ⟨read, hrest, hlength, hread⟩ := exists_of_stripText? hstrip
      refine spells_nil ⟨read, hrest, by simp [hlength], fun c hc => .text ?_⟩
      obtain ⟨p, hp, hsame⟩ := hread c hc
      simp only [Bool.false_eq_true, false_and, or_false] at hsame
      exact hsame ▸ hp
    · exact nofun
  | word chars =>
    unfold matchExpr
    split
    · rename_i rest hstrip
      obtain ⟨read, hrest, hlength, hread⟩ := exists_of_stripText? hstrip
      refine spells_nil ⟨read, hrest, by simp [hlength], fun c hc => .word ?_⟩
      obtain ⟨p, hp, hsame⟩ := hread c hc
      exact ⟨p, hp, hsame.elim (congrArg asciiLower) And.right⟩
    · exact nofun
  | rule r => exact hcall r mode s
  | seq first second ihFirst ihSecond =>
    intro nodes s' hs'
    unfold matchExpr at hs'
    split at hs'
    · rename_i front s₁ hfront
      obtain ⟨hnodes, hread⟩ := ihFirst s front s₁ hfront
      split at hs'
      · rename_i rest s₂ hrest
        obtain ⟨hmore, hread'⟩ := ihSecond _ rest s₂ hrest
        have hfirst : mode ≠ .words → ReadsOnly g (.seq first second) s s₁ :=
          fun hmode => (hread hmode).mono fun _ => .first
        have hsecond : mode ≠ .words → ReadsOnly g (.seq first second) (skipBlanks g mode s₁) s₂ :=
          fun hmode => (hread' hmode).mono fun _ => .second
        exact spells_append hnodes hmore hfirst hsecond nodes s' hs'
      · rename_i hrest
        exact absurd hs' (hrest nodes s')
    · rename_i hfront
      exact absurd hs' (hfront nodes s')
  | choice first second ihFirst ihSecond =>
    intro nodes s' hs'
    unfold matchExpr at hs'
    split at hs'
    · obtain ⟨hnodes, hread⟩ := ihSecond _ nodes s' hs'
      exact ⟨hnodes, fun hmode => (hread hmode).mono fun _ => .right⟩
    · obtain ⟨hnodes, hread⟩ := ihFirst s nodes s' hs'
      exact ⟨hnodes, fun hmode => (hread hmode).mono fun _ => .left⟩
  | star item ih =>
    have hitem : ∀ s, (matchExpr g call fuel mode item s).Spells g mode (.star item) s := by
      intro s nodes s' hs'
      obtain ⟨hnodes, hread⟩ := ih s nodes s' hs'
      exact ⟨hnodes, fun hmode => (hread hmode).mono fun _ => .item⟩
    intro nodes s' hs'
    unfold matchExpr at hs'
    split at hs'
    · rename_i front s₁ hfront
      obtain ⟨hnodes, hread⟩ := hitem s front s₁ hfront
      split at hs'
      · rename_i rest s₂ hrest
        obtain ⟨hmore, hread'⟩ := repeatStep_spells hitem fuel s₁ rest s₂ hrest
        exact spells_append hnodes hmore hread hread' nodes s' hs'
      · rename_i hrest
        exact absurd hs' (hrest nodes s')
    · exact spells_nil (readsOnly_stay _ s _) nodes s' hs'
    · cases hs'
  | notAhead item _ =>
    unfold matchExpr
    split
    · exact nofun
    · exact spells_nil (readsOnly_stay _ s _)
    · exact nofun
  | ahead item _ =>
    unfold matchExpr
    split
    · exact spells_nil (readsOnly_stay _ s _)
    · exact nofun
    · exact nofun

end Match

/-- A token is matched without blanks, whatever its caller allows. -/
theorem bodyMode_ne_words {manner : Manner} {mode : Mode} (h : mode ≠ .words ∨ manner = .token) :
    manner.bodyMode mode ≠ .words := by
  rcases h with h | rfl
  · cases manner with
    | words | silent => exact h
    | token | compound => exact nofun
  · exact nofun

/-- A rule that is matched spells what it reads. -/
theorem matchRule_spells (g : Grammar R) (fuel : Nat) (r : R) (mode : Mode) (s : State) :
    (matchRule g fuel r mode s).Spells g mode (.rule r) s := by
  induction fuel generalizing r mode s with
  | zero => exact nofun
  | succ fuel ih =>
    intro nodes s' hs'
    unfold matchRule at hs'
    dsimp only at hs'
    split at hs'
    · rename_i inner s₁ hinner
      obtain ⟨hnodes, hread⟩ := matchExpr_spells ih _ s inner s₁ hinner
      have hreads : mode ≠ .words → ReadsOnly g (.rule r) s s₁ := fun hmode =>
        (hread (bodyMode_ne_words (.inl hmode))).mono fun _ => .rule
      split at hs'
      · cases hs'
        refine ⟨fun node hnode => ?_, hreads⟩
        rw [List.mem_singleton.mp hnode]
        refine .node (fun htoken => ?_) hnodes
        -- the text of the node is what its body read
        obtain ⟨read, hrest, hindex, hmay⟩ := hread (bodyMode_ne_words (.inr htoken))
        have hlength : s'.index - s.index = read.length := by omega
        rw [hrest, hlength, List.take_left]
        exact hmay
      · cases hs'
        exact ⟨hnodes, hreads⟩
    · cases hs'
    · cases hs'

/-- The tokens of a text are spelled as their rules say. -/
theorem Grammar.isSpelled_of_parse {r : R} {cs : List Char} {nodes : List (ParseTree R)}
    (h : g.parse r cs = .ok nodes) : ∀ node ∈ nodes, IsSpelled g node := by
  unfold Grammar.parse at h
  split at h
  · rename_i left s hmatched
    cases h
    exact (matchRule_spells g _ r .words _ nodes s hmatched).1
  · cases h
  · cases h

end RdfStore.Peg
