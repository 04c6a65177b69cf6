import RdfStore.Proofs.Peg.Reads

/-!
# What the next character tells

The next character of a text often tells that an expression fails there, or that it matches
without reading anything. `peek` finds this out by looking into rules up to a given depth.
-/

set_option autoImplicit false

namespace RdfStore.Peg

variable {R : Type}

/-- What is known of an attempt. -/
inductive Glance where
  /-- It fails. -/
  | fails
  /-- It matches without reading anything. -/
  | stays
  | unknown
deriving DecidableEq

/-- What the next character tells about an expression, given what it tells about rules. -/
def Expr.peek (call : R → Glance) (next : Option Char) : Expr R → Glance
  | .nothing => .stays
  | .char isMember => if next.any isMember then .unknown else .fails
  | .text [] | .word [] => .stays
  | .text (p :: _) => if next.any (p == ·) then .unknown else .fails
  | .word (p :: _) =>
    if next.any fun c => p == c || Text.asciiLower p == Text.asciiLower c then .unknown else .fails
  | .rule r => call r
  | .seq first second =>
    match first.peek call next with
    | .stays => second.peek call next
    | other => other
  | .choice first second =>
    match first.peek call next with
    | .fails => second.peek call next
    | other => other
  | .star item =>
    match item.peek call next with
    | .fails => .stays
    | _ => .unknown
  | .notAhead item =>
    match item.peek call next with
    | .fails => .stays
    | .stays => .fails
    | .unknown => .unknown
  | .ahead item => item.peek call next

/-- What the next character tells about a rule, looking so many calls deep. -/
def Grammar.peek (g : Grammar R) (next : Option Char) : Nat → R → Glance
  | 0, _ => .unknown
  | depth + 1, r => (g.production r).body.peek (g.peek next depth) next

variable {g : Grammar R} {cs : List Char}

/-- No blanks are skipped at the start of a text. -/
def Starts (g : Grammar R) (mode : Mode) (cs : List Char) : Prop := mode = .words → g.blanks cs = 0

/-- Without blanks between words none are skipped. -/
theorem starts_of_ne {mode : Mode} (h : mode ≠ .words) (cs : List Char) : Starts g mode cs :=
  fun hwords => absurd hwords h

/-- Where no blanks are skipped, the bodies of rules that are called there skip none. -/
theorem Starts.bodyMode {mode : Mode} (h : Starts g mode cs) (manner : Manner) :
    Starts g (manner.bodyMode mode) cs := by
  intro hwords
  cases manner with
  | words | silent => exact h hwords
  | token | compound => cases hwords

/-- Skipping blanks stays where no blanks are skipped. -/
theorem Starts.skipBlanks_eq {mode : Mode} (h : Starts g mode cs) (index blame : Nat) :
    skipBlanks g mode ⟨cs, index, blame⟩ = ⟨cs, index, blame⟩ := by
  cases mode with
  | words => exact if_pos (h rfl)
  | token | compound => rfl

/-- What a glance says holds of an attempt at the start of a text. -/
def Glance.Holds (g : Grammar R) (cs : List Char) (e : Expr R) : Glance → Prop
  | .fails => ∀ mode, Starts g mode cs → Refuses g mode e cs
  | .stays => ∀ mode, Starts g mode cs → ∀ index blame, ∃ trees blame',
    Ends g mode e ⟨cs, index, blame⟩ (.matched trees ⟨cs, index, blame'⟩)
  | .unknown => True

/-- A text is not found where its first character does not come next. -/
theorem stripText?_of_head {ignoreCase : Bool} {p : Char} {chars : List Char}
    (h : ¬cs.head?.any (fun c => p == c ||
      (ignoreCase && Text.asciiLower p == Text.asciiLower c)) = true) :
    stripText? ignoreCase (p :: chars) cs = none := by
  cases cs with
  | nil => rfl
  | cons c rest => exact if_neg h

namespace Glance

variable {first second item : Expr R}

/-- A character that is not of the class fails. -/
theorem Holds.char {isMember : Char → Bool} (h : ¬cs.head?.any isMember = true) :
    Holds g cs (.char isMember) .fails := by
  refine fun _ _ _ blame => ⟨blame, ends_of_eq fun fuel => ?_⟩
  cases cs with
  | nil => rfl
  | cons c rest =>
    rw [matchExpr]
    exact if_neg h

/-- One expression and then the other fail where the first does. -/
theorem Holds.seq_fails (h : Holds g cs first .fails) : Holds g cs (.seq first second) .fails :=
  fun mode hs => (h mode hs).seq

/-- Both fail where the first stays and the second fails. -/
theorem Holds.seq_right (h : Holds g cs first .stays) (h' : Holds g cs second .fails) :
    Holds g cs (.seq first second) .fails := by
  intro mode hs index blame
  obtain ⟨trees, b, hends⟩ := h mode hs index blame
  obtain ⟨b', hends'⟩ := h' mode hs index b
  rw [← hs.skipBlanks_eq index b] at hends'
  exact ⟨b', hends.seq_right hends'⟩

/-- Both stay where each does. -/
theorem Holds.seq_stays (h : Holds g cs first .stays) (h' : Holds g cs second .stays) :
    Holds g cs (.seq first second) .stays := by
  intro mode hs index blame
  obtain ⟨trees, b, hends⟩ := h mode hs index blame
  obtain ⟨trees', b', hends'⟩ := h' mode hs index b
  rw [← hs.skipBlanks_eq index b] at hends'
  exact ⟨trees ++ trees', b', hends.seq hends'⟩

/-- A choice fails where both expressions do. -/
theorem Holds.choice_fails (h : Holds g cs first .fails) (h' : Holds g cs second .fails) :
    Holds g cs (.choice first second) .fails :=
  fun mode hs => (h mode hs).choice (h' mode hs)

/-- A choice stays where its first expression does. -/
theorem Holds.choice_left (h : Holds g cs first .stays) :
    Holds g cs (.choice first second) .stays := by
  intro mode hs index blame
  obtain ⟨trees, b, hends⟩ := h mode hs index blame
  exact ⟨trees, b, hends.choice_left⟩

/-- A choice stays where its first expression fails and its second one stays. -/
theorem Holds.choice_right (h : Holds g cs first .fails) (h' : Holds g cs second .stays) :
    Holds g cs (.choice first second) .stays := by
  intro mode hs index blame
  obtain ⟨b, hends⟩ := h mode hs index blame
  obtain ⟨trees, b', hends'⟩ := h' mode hs index b
  exact ⟨trees, b', hends.choice_right hends'⟩

/-- A star stays where its expression fails. -/
theorem Holds.star (h : Holds g cs item .fails) : Holds g cs (.star item) .stays := by
  intro mode hs index blame
  obtain ⟨b, hends⟩ := h mode hs index blame
  have hskip := hs.skipBlanks_eq index blame
  rw [← hskip] at hends
  exact ⟨[], b, hends.repeat_stop.star hskip⟩

/-- Looking ahead for what fails stays. -/
theorem Holds.notAhead (h : Holds g cs item .fails) : Holds g cs (.notAhead item) .stays := by
  intro mode hs index blame
  obtain ⟨b, hends⟩ := h mode hs index blame
  exact ⟨[], blame, hends.notAhead⟩

/-- Looking ahead for what should not be there fails where it stays. -/
theorem Holds.notAhead_fails (h : Holds g cs item .stays) :
    Holds g cs (.notAhead item) .fails := by
  intro mode hs index blame
  obtain ⟨trees, b, hends⟩ := h mode hs index blame
  exact ⟨blame, hends.notAhead_failed⟩

/-- Looking ahead fails where the expression does. -/
theorem Holds.ahead_fails (h : Holds g cs item .fails) : Holds g cs (.ahead item) .fails :=
  fun mode hs => (h mode hs).ahead

/-- Looking ahead stays where the expression does. -/
theorem Holds.ahead (h : Holds g cs item .stays) : Holds g cs (.ahead item) .stays := by
  intro mode hs index blame
  obtain ⟨trees, b, hends⟩ := h mode hs index blame
  exact ⟨[], blame, hends.ahead⟩

end Glance

/-- What the next character tells about an expression holds, given that it does for rules. -/
theorem Expr.peek_holds {call : R → Glance} (h : ∀ r, (call r).Holds g cs (.rule r))
    (e : Expr R) : (e.peek call cs.head?).Holds g cs e := by
  induction e with
  | nothing => exact fun _ _ _ blame => ⟨[], blame, ends_of_eq fun _ => rfl⟩
  | char isMember =>
    unfold peek
    split
    · trivial
    · rename_i hnext
      exact Glance.Holds.char hnext
  | text chars =>
    cases chars with
    | nil => exact fun _ _ _ blame => ⟨[], blame, ends_of_eq fun _ => rfl⟩
    | cons p chars =>
      unfold peek
      split
      · trivial
      · rename_i hnext
        exact fun _ _ => refuses_text (stripText?_of_head (by simpa using hnext))
  | word chars =>
    cases chars with
    | nil => exact fun _ _ _ blame => ⟨[], blame, ends_of_eq fun _ => rfl⟩
    | cons p chars =>
      unfold peek
      split
      · trivial
      · rename_i hnext
        exact fun _ _ => refuses_word (stripText?_of_head (by simpa using hnext))
  | rule r => exact h r
  | seq first second ihFirst ihSecond =>
    unfold peek
    cases hfirst : first.peek call cs.head? with
    | fails =>
      rw [hfirst] at ihFirst
      exact ihFirst.seq_fails
    | stays =>
      rw [hfirst] at ihFirst
      dsimp only
      cases hsecond : second.peek call cs.head? with
      | fails =>
        rw [hsecond] at ihSecond
        exact ihFirst.seq_right ihSecond
      | stays =>
        rw [hsecond] at ihSecond
        exact ihFirst.seq_stays ihSecond
      | unknown => trivial
    | unknown => trivial
  | choice first second ihFirst ihSecond =>
    unfold peek
    cases hfirst : first.peek call cs.head? with
    | fails =>
      rw [hfirst] at ihFirst
      dsimp only
      cases hsecond : second.peek call cs.head? with
      | fails =>
        rw [hsecond] at ihSecond
        exact ihFirst.choice_fails ihSecond
      | stays =>
        rw [hsecond] at ihSecond
        exact ihFirst.choice_right ihSecond
      | unknown => trivial
    | stays =>
      rw [hfirst] at ihFirst
      exact ihFirst.choice_left
    | unknown => trivial
  | star item ih =>
    unfold peek
    cases hitem : item.peek call cs.head? with
    | fails =>
      rw [hitem] at ih
      exact ih.star
    | stays | unknown => trivial
  | notAhead item ih =>
    unfold peek
    cases hitem : item.peek call cs.head? with
    | fails =>
      rw [hitem] at ih
      exact ih.notAhead
    | stays =>
      rw [hitem] at ih
      exact ih.notAhead_fails
    | unknown => trivial
  | ahead item ih =>
    unfold peek
    cases hitem : item.peek call cs.head? with
    | fails =>
      rw [hitem] at ih
      exact ih.ahead_fails
    | stays =>
      rw [hitem] at ih
      exact ih.ahead
    | unknown => trivial

/-- What the next character tells about a rule holds. -/
theorem Grammar.peek_holds (g : Grammar R) (cs : List Char) (depth : Nat) (r : R) :
    (g.peek cs.head? depth r).Holds g cs (.rule r) := by
  induction depth generalizing r with
  | zero => trivial
  | succ depth ih =>
    have hbody := Expr.peek_holds ih (g.production r).body
    unfold peek
    cases hr : (g.production r).body.peek (g.peek cs.head? depth) cs.head? with
    | fails =>
      rw [hr] at hbody
      exact fun mode hs => (hbody _ (hs.bodyMode _)).rule
    | stays =>
      rw [hr] at hbody
      intro mode hs index blame
      obtain ⟨trees, b, hends⟩ := hbody _ (hs.bodyMode _) index blame
      cases hvisible : (g.production r).manner.isVisible mode with
      | true => exact ⟨_, b, hends.rule hvisible⟩
      | false => exact ⟨_, b, hends.rule_hidden hvisible⟩
    | unknown => trivial

/-- An expression is refused where the next character tells that it fails. -/
theorem refuses_of_peek {mode : Mode} (hstarts : Starts g mode cs) (depth : Nat) {e : Expr R}
    (h : e.peek (g.peek cs.head? depth) cs.head? = .fails) : Refuses g mode e cs := by
  have hholds := Expr.peek_holds (g.peek_holds cs depth) e
  rw [h] at hholds
  exact hholds mode hstarts

end RdfStore.Peg
