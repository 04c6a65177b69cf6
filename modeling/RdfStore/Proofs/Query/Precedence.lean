import Mathlib.Data.List.Forall2
import RdfStore.Query.Basic
import RdfStore.Query.Reader

/-!
# Trees of operators

An expression is put together from operands and operators by their strength. What all operands
have and all operators keep, the expression has, whichever way the operators are grouped. How they
are grouped is told by the words of the expression alone.
-/

set_option autoImplicit false

namespace RdfStore.Query

namespace Precedence

variable {α : Type} {p : α → Prop}

/-- A part brings the property with it: an operand has it, and a membership keeps it. -/
def Token.Brings (p : α → Prop) : Token α → Prop
  | .operand value => p value
  | .before _ | .between _ => True
  | .after apply => ∀ value, p value → p (apply value)

/-- Closing operators that keep a property keeps it. -/
theorem settle_keeps (bound : Nat) {pending : List (Pending α)} {value : α}
    (hpending : ∀ top ∈ pending, ∀ v, p v → p (top.close v)) (hvalue : p value) :
    (∀ top ∈ (settle bound pending value).1, ∀ v, p v → p (top.close v)) ∧
      p (settle bound pending value).2 := by
  induction pending generalizing value with
  | nil => exact ⟨hpending, hvalue⟩
  | cons top rest ih =>
    unfold settle
    split
    · exact ih (fun t ht => hpending t (List.mem_cons_of_mem top ht))
        (hpending top List.mem_cons_self value hvalue)
    · exact ⟨hpending, hvalue⟩

/-- The open operators keep a property, and the operand has it. -/
structure Progress.Keeps (p : α → Prop) (progress : Progress α) : Prop where
  pending : ∀ top ∈ progress.pending, ∀ v, p v → p (top.close v)
  current : ∀ v, progress.current = some v → p v

variable {alg : Algebra α}

/-- Taking a part keeps what the operators of the algebra keep. -/
theorem step_keeps (hunary : ∀ op v, p v → p (alg.unary op v))
    (hbinary : ∀ op v w, p v → p w → p (alg.binary op v w)) {progress next : Progress α}
    {token : Token α} (h : progress.Keeps p) (htoken : token.Brings p)
    (hstep : step alg progress token = some next) : next.Keeps p := by
  obtain ⟨pending, current⟩ := progress
  cases token with
  | operand value =>
    cases current with
    | none =>
      cases hstep
      exact ⟨h.pending, fun v hv => Option.some.inj hv ▸ htoken⟩
    | some _ => cases hstep
  | before op =>
    cases current with
    | none =>
      cases hstep
      refine ⟨fun top htop v hv => ?_, fun v hv => nomatch hv⟩
      rcases List.mem_cons.mp htop with rfl | htop
      · exact hunary op v hv
      · exact h.pending top htop v hv
    | some _ => cases hstep
  | between op =>
    cases current with
    | none => cases hstep
    | some value =>
      cases hstep
      obtain ⟨hopen, hleft⟩ := settle_keeps (strength op) h.pending (h.current value rfl)
      refine ⟨fun top htop v hv => ?_, fun v hv => nomatch hv⟩
      rcases List.mem_cons.mp htop with rfl | htop
      · exact hbinary op _ v hleft hv
      · exact hopen top htop v hv
  | after apply =>
    cases current with
    | none => cases hstep
    | some value =>
      cases hstep
      obtain ⟨hopen, hoperand⟩ :=
        settle_keeps membershipStrength h.pending (h.current value rfl)
      exact ⟨hopen, fun v hv => Option.some.inj hv ▸ htoken _ hoperand⟩

/-- So does taking parts one after the other. -/
theorem steps_keep (hunary : ∀ op v, p v → p (alg.unary op v))
    (hbinary : ∀ op v w, p v → p w → p (alg.binary op v w)) {tokens : List (Token α)}
    (htokens : ∀ token ∈ tokens, token.Brings p) {progress last : Progress α}
    (h : progress.Keeps p) (hlast : tokens.foldlM (step alg) progress = some last) :
    last.Keeps p := by
  induction tokens generalizing progress with
  | nil =>
    cases hlast
    exact h
  | cons token rest ih =>
    rw [List.foldlM_cons] at hlast
    obtain ⟨next, hnext, hlast⟩ := Option.bind_eq_some_iff.mp hlast
    have hstep := step_keeps hunary hbinary h (htokens token List.mem_cons_self) hnext
    exact ih (fun t ht => htokens t (List.mem_cons_of_mem token ht)) hstep hlast

/-- The tree of parts has a property that the operands have and the operators keep. -/
theorem combine_keeps (hunary : ∀ op v, p v → p (alg.unary op v))
    (hbinary : ∀ op v w, p v → p w → p (alg.binary op v w)) {tokens : List (Token α)}
    (htokens : ∀ token ∈ tokens, token.Brings p) {value : α}
    (h : combine alg tokens = some value) : p value := by
  unfold combine at h
  obtain ⟨last, hlast, h⟩ := Option.bind_eq_some_iff.mp h
  obtain ⟨current, hcurrent, h⟩ := Option.bind_eq_some_iff.mp h
  cases h
  have hstart : (⟨[], none⟩ : Progress α).Keeps p :=
    ⟨fun top htop => absurd htop List.not_mem_nil, fun v hv => nomatch hv⟩
  have hkeeps := steps_keep hunary hbinary htokens hstart hlast
  exact (settle_keeps 0 hkeeps.pending (hkeeps.current current hcurrent)).2

/-! ## What one part gives -/

/-- A membership keeps a property of its operand. -/
def Token.Keeps (p : α → Prop) : Token α → Prop
  | .after apply => ∀ value, p value → p (apply value)
  | .operand _ | .before _ | .between _ => True

/-- A part has a property, whatever it is put together with. -/
def Token.Gives (p : α → Prop) : Token α → Prop
  | .operand value => p value
  | .after apply => ∀ value, p (apply value)
  | .before _ | .between _ => False

/-- Open operators keep a property. -/
def KeepOpen (p : α → Prop) (pending : List (Pending α)) : Prop :=
  ∀ top ∈ pending, ∀ v, p v → p (top.close v)

/-- An open operator has a property whatever its right side is. -/
def OneGives (p : α → Prop) (pending : List (Pending α)) : Prop :=
  ∃ top ∈ pending, ∀ v, p (top.close v)

/-- An open operator or the operand has a property. -/
def Progress.Gives (p : α → Prop) (progress : Progress α) : Prop :=
  OneGives p progress.pending ∨ ∃ v, progress.current = some v ∧ p v

/-- Operators stay open as they are. -/
theorem mem_of_mem_settle (bound : Nat) {pending : List (Pending α)} {value : α} {top : Pending α}
    (h : top ∈ (settle bound pending value).1) : top ∈ pending := by
  induction pending generalizing value with
  | nil => exact h
  | cons first rest ih =>
    unfold settle at h
    split at h
    · exact List.mem_cons_of_mem first (ih h)
    · exact h

/-- Closing operators hands a property on. -/
theorem settle_gives (bound : Nat) {pending : List (Pending α)} {value : α}
    (hkeep : KeepOpen p pending) (h : OneGives p pending ∨ p value) :
    OneGives p (settle bound pending value).1 ∨ p (settle bound pending value).2 := by
  induction pending generalizing value with
  | nil => exact h
  | cons first rest ih =>
    unfold settle
    split
    · refine ih (fun top htop => hkeep top (List.mem_cons_of_mem first htop)) ?_
      rcases h with ⟨top, htop, hclose⟩ | hvalue
      · rcases List.mem_cons.mp htop with rfl | htop
        · exact .inr (hclose value)
        · exact .inl ⟨top, htop, hclose⟩
      · exact .inr (hkeep first List.mem_cons_self value hvalue)
    · exact h

/-- In the end all operators are closed. -/
theorem settle_zero (pending : List (Pending α)) (value : α) : (settle 0 pending value).1 = [] := by
  induction pending generalizing value with
  | nil => rfl
  | cons first rest ih =>
    unfold settle
    rw [if_pos (Nat.zero_le _)]
    exact ih _

/-- Taking a part hands on what it gives or what was there. -/
theorem step_gives (hunary : ∀ op v, p v → p (alg.unary op v))
    (hleft : ∀ op v w, p v → p (alg.binary op v w))
    (hright : ∀ op v w, p w → p (alg.binary op v w)) {progress next : Progress α}
    {token : Token α} (hkeep : KeepOpen p progress.pending) (htoken : token.Keeps p)
    (hstep : step alg progress token = some next) :
    KeepOpen p next.pending ∧ (progress.Gives p ∨ token.Gives p → next.Gives p) := by
  obtain ⟨pending, current⟩ := progress
  have hsettled : ∀ bound value, KeepOpen p (settle bound pending value).1 :=
    fun bound value top htop => hkeep top (mem_of_mem_settle bound htop)
  have hhanded : ∀ bound value, Progress.Gives p ⟨pending, some value⟩ →
      OneGives p (settle bound pending value).1 ∨ p (settle bound pending value).2 := by
    rintro bound value (hone | ⟨_, ⟨⟩, hvalue⟩)
    · exact settle_gives bound hkeep (.inl hone)
    · exact settle_gives bound hkeep (.inr hvalue)
  cases token with
  | operand value =>
    cases current with
    | none =>
      cases hstep
      refine ⟨hkeep, ?_⟩
      rintro ((hone | ⟨_, ⟨⟩, -⟩) | hvalue)
      · exact .inl hone
      · exact .inr ⟨value, rfl, hvalue⟩
    | some _ => cases hstep
  | before op =>
    cases current with
    | none =>
      cases hstep
      refine ⟨fun top htop => ?_, ?_⟩
      · rcases List.mem_cons.mp htop with rfl | htop
        · exact hunary op
        · exact hkeep top htop
      · rintro ((⟨top, htop, hclose⟩ | ⟨_, ⟨⟩, -⟩) | hnone)
        · exact .inl ⟨top, List.mem_cons_of_mem _ htop, hclose⟩
        · exact hnone.elim
    | some _ => cases hstep
  | between op =>
    cases current with
    | none => cases hstep
    | some value =>
      cases hstep
      refine ⟨fun top htop => ?_, ?_⟩
      · rcases List.mem_cons.mp htop with rfl | htop
        · exact hright op _
        · exact hsettled _ value top htop
      · rintro (hprogress | hnone)
        · rcases hhanded (strength op) value hprogress with ⟨top, htop, hclose⟩ | hoperand
          · exact .inl ⟨top, List.mem_cons_of_mem _ htop, hclose⟩
          · exact .inl ⟨_, List.mem_cons_self, fun w => hleft op _ w hoperand⟩
        · exact hnone.elim
  | after apply =>
    cases current with
    | none => cases hstep
    | some value =>
      cases hstep
      refine ⟨hsettled _ value, ?_⟩
      rintro (hprogress | hall)
      · rcases hhanded membershipStrength value hprogress with hone | hoperand
        · exact .inl hone
        · exact .inr ⟨_, rfl, htoken _ hoperand⟩
      · exact .inr ⟨_, rfl, hall _⟩

/-- The tree of parts has a property that one part gives and all others keep. -/
theorem combine_gives (hunary : ∀ op v, p v → p (alg.unary op v))
    (hleft : ∀ op v w, p v → p (alg.binary op v w))
    (hright : ∀ op v w, p w → p (alg.binary op v w)) {tokens : List (Token α)}
    (hkeeps : ∀ token ∈ tokens, token.Keeps p) (hgives : ∃ token ∈ tokens, token.Gives p)
    {value : α} (h : combine alg tokens = some value) : p value := by
  have hsteps : ∀ progress last : Progress α, KeepOpen p progress.pending →
      (progress.Gives p ∨ ∃ token ∈ tokens, token.Gives p) →
        tokens.foldlM (step alg) progress = some last → KeepOpen p last.pending ∧ last.Gives p := by
    clear hgives h
    induction tokens with
    | nil =>
      rintro progress last hopen (hprogress | ⟨_, hmem, -⟩) hlast
      · cases hlast
        exact ⟨hopen, hprogress⟩
      · cases hmem
    | cons token rest ih =>
      intro progress last hopen hsome hlast
      rw [List.foldlM_cons] at hlast
      obtain ⟨next, hnext, hlast⟩ := Option.bind_eq_some_iff.mp hlast
      obtain ⟨hopen', hgives⟩ :=
        step_gives hunary hleft hright hopen (hkeeps token List.mem_cons_self) hnext
      refine ih (fun t ht => hkeeps t (List.mem_cons_of_mem token ht)) next last hopen' ?_ hlast
      rcases hsome with hprogress | ⟨t, ht, ht'⟩
      · exact .inl (hgives (.inl hprogress))
      · rcases List.mem_cons.mp ht with rfl | ht
        · exact .inl (hgives (.inr ht'))
        · exact .inr ⟨t, ht, ht'⟩
  unfold combine at h
  obtain ⟨last, hlast, h⟩ := Option.bind_eq_some_iff.mp h
  obtain ⟨current, hcurrent, h⟩ := Option.bind_eq_some_iff.mp h
  cases h
  obtain ⟨hopen, hlast⟩ := hsteps ⟨[], none⟩ last nofun (.inr hgives) hlast
  have hend : OneGives p last.pending ∨ p current := by
    rcases hlast with hone | ⟨v, hv, hp⟩
    · exact .inl hone
    · rw [hcurrent] at hv
      cases hv
      exact .inr hp
  rcases settle_gives 0 hopen hend with ⟨top, htop, -⟩ | hvalue
  · rw [settle_zero] at htop
    cases htop
  · exact hvalue

/-! ## Related operands -/

section Related

variable {α β : Type} {r : α → β → Prop}

/-- Two parts are the same apart from related operands. -/
inductive Token.Alike (r : α → β → Prop) : Token α → Token β → Prop where
  | operand {a : α} {b : β} (h : r a b) : Alike r (.operand a) (.operand b)
  | before (op : UnaryOp) : Alike r (.before op) (.before op)
  | between (op : BinaryOp) : Alike r (.between op) (.between op)
  | after {f : α → α} {g : β → β} (h : ∀ a b, r a b → r (f a) (g b)) :
    Alike r (.after f) (.after g)

/-- Two open operators bind alike and make related operands of related ones. -/
structure Pending.Alike (r : α → β → Prop) (top : Pending α) (top' : Pending β) : Prop where
  strength : top'.strength = top.strength
  close : ∀ a b, r a b → r (top.close a) (top'.close b)

/-- Two walks over parts are at the same point. -/
structure Progress.Alike (r : α → β → Prop) (p : Progress α) (p' : Progress β) : Prop where
  pending : List.Forall₂ (Pending.Alike r) p.pending p'.pending
  current : Option.Rel r p.current p'.current

/-- Closing operators keeps operands related. -/
theorem settle_alike (bound : Nat) {pending : List (Pending α)} {pending' : List (Pending β)}
    (h : List.Forall₂ (Pending.Alike r) pending pending') {a : α} {b : β} (hab : r a b) :
    List.Forall₂ (Pending.Alike r) (settle bound pending a).1 (settle bound pending' b).1 ∧
      r (settle bound pending a).2 (settle bound pending' b).2 := by
  induction h generalizing a b with
  | nil => exact ⟨.nil, hab⟩
  | cons htop hrest ih =>
    unfold settle
    rw [htop.strength]
    split
    · exact ih (htop.close a b hab)
    · exact ⟨.cons htop hrest, hab⟩

variable {alg : Algebra α} {alg' : Algebra β}

/-- Taking parts that are alike leads to the same point, or to none. -/
theorem step_alike (hunary : ∀ op a b, r a b → r (alg.unary op a) (alg'.unary op b))
    (hbinary : ∀ op a b c d, r a b → r c d → r (alg.binary op a c) (alg'.binary op b d))
    {p : Progress α} {p' : Progress β} (h : p.Alike r p') {token : Token α} {token' : Token β}
    (htoken : token.Alike r token') :
    Option.Rel (Progress.Alike r) (step alg p token) (step alg' p' token') := by
  obtain ⟨pending, current⟩ := p
  obtain ⟨pending', current'⟩ := p'
  obtain ⟨hpending, hcurrent⟩ := h
  dsimp only at hpending hcurrent
  cases htoken with
  | operand hab =>
    cases hcurrent with
    | none => exact .some ⟨hpending, .some hab⟩
    | some _ => exact .none
  | before op =>
    cases hcurrent with
    | none => exact .some ⟨.cons ⟨rfl, hunary op⟩ hpending, .none⟩
    | some _ => exact .none
  | between op =>
    cases hcurrent with
    | none => exact .none
    | some hab =>
      obtain ⟨hopen, hleft⟩ := settle_alike (strength op) hpending hab
      exact .some ⟨.cons ⟨rfl, fun c d => hbinary op _ _ c d hleft⟩ hopen, .none⟩
  | after hf =>
    cases hcurrent with
    | none => exact .none
    | some hab =>
      obtain ⟨hopen, hoperand⟩ := settle_alike membershipStrength hpending hab
      exact .some ⟨hopen, .some (hf _ _ hoperand)⟩

/-- The trees of parts that are alike are related, if there are any. -/
theorem combine_alike (hunary : ∀ op a b, r a b → r (alg.unary op a) (alg'.unary op b))
    (hbinary : ∀ op a b c d, r a b → r c d → r (alg.binary op a c) (alg'.binary op b d))
    {tokens : List (Token α)} {tokens' : List (Token β)}
    (h : List.Forall₂ (Token.Alike r) tokens tokens') :
    Option.Rel r (combine alg tokens) (combine alg' tokens') := by
  have hsteps : ∀ (p : Progress α) (p' : Progress β), p.Alike r p' →
      Option.Rel (Progress.Alike r) (tokens.foldlM (step alg) p)
        (tokens'.foldlM (step alg') p') := by
    induction h with
    | nil => exact fun _ _ hp => .some hp
    | cons htoken _ ih =>
      intro p p' hp
      rw [List.foldlM_cons, List.foldlM_cons]
      have hstep := step_alike hunary hbinary hp htoken
      generalize step alg p _ = next, step alg' p' _ = next' at hstep ⊢
      cases hstep with
      | none => exact .none
      | some hnext => exact ih _ _ hnext
  have hlast := hsteps ⟨[], none⟩ ⟨[], none⟩ ⟨.nil, .none⟩
  unfold combine
  generalize tokens.foldlM (step alg) _ = last, tokens'.foldlM (step alg') _ = last' at hlast ⊢
  cases hlast with
  | none => exact .none
  | @some last last' hend =>
    obtain ⟨pending, current⟩ := last
    obtain ⟨pending', current'⟩ := last'
    obtain ⟨hpending, hcurrent⟩ := hend
    dsimp only at hpending hcurrent
    cases hcurrent with
    | none => exact .none
    | some hab => exact .some (settle_alike 0 hpending hab).2

end Related

end Precedence

end RdfStore.Query

/-!
## Sequences of words

Variables and operators that take turns as they should are combined to one tree, which read from
left to right gives them back. An operator before a variable has nothing but that variable, with the
operators between them, below it. An operator between two operands binds no more tightly than the
one at its left and less tightly than the one at its right.

While the sequence is read, the operators whose right side is open wait in a row. Between operands
each of them binds more tightly than the one before it, because others would have been closed.
-/

namespace RdfStore.Query

open Precedence (Token Pending Progress settle step combine strength prefixStrength)

/-! ## Expressions read in order -/

/-- One word of an expression. -/
inductive Lexeme where
  | operand (name : String)
  | before (op : UnaryOp)
  | between (op : BinaryOp)
deriving DecidableEq

/-- The words of an expression of variables and operators, from left to right. -/
def inOrder : Expr → List Lexeme
  | .var name => [.operand name]
  | .unary op operand => .before op :: inOrder operand
  | .binary op left right => inOrder left ++ .between op :: inOrder right
  | _ => []

/-- How tightly an operator between two operands is meant to bind: `||` most loosely, then `&&`,
then comparisons, then `+` and `-`, then `*` and `/`. -/
def level : BinaryOp → Nat
  | .or => 1
  | .and => 2
  | .compare _ => 3
  | .calculate .add | .calculate .sub => 4
  | .calculate .mul | .calculate .div => 5

/-- How tightly the operator at the top of an expression binds. An operand is held together more
tightly than by any operator between operands. -/
def tightness : Expr → Nat
  | .binary op _ _ => level op
  | _ => 6

/-- A variable with operators before it, and nothing else. -/
inductive IsPrefixed : Expr → Prop where
  | var (name : String) : IsPrefixed (.var name)
  | unary (op : UnaryOp) {operand : Expr} (h : IsPrefixed operand) : IsPrefixed (.unary op operand)

/-- Operators before operands have these operands only, and at every operator between operands the
left side binds at least as tightly as the operator and the right side more tightly. -/
inductive IsGrouped : Expr → Prop where
  | operand {e : Expr} (h : IsPrefixed e) : IsGrouped e
  | binary {op : BinaryOp} {left right : Expr} (hleft : IsGrouped left) (hright : IsGrouped right)
    (hloose : level op ≤ tightness left) (htight : level op < tightness right) :
    IsGrouped (.binary op left right)

/-- The strength that operators are read with is the level of the grammar. -/
theorem strength_eq_level (op : BinaryOp) : strength op = level op := by
  cases op with
  | or | and | compare _ => rfl
  | calculate a => cases a <;> rfl

/-- The operators between two operands have six levels. -/
theorem level_lt_six (op : BinaryOp) : level op < 6 := by
  unfold level
  split <;> decide

/-- An operator in front binds tighter than any between two operands. -/
theorem IsPrefixed.tightness_eq {e : Expr} (h : IsPrefixed e) : tightness e = 6 := by
  cases h <;> rfl

/-! ## Open operators -/

/-- An operator whose right side is open, with its left side. -/
inductive Opened where
  | before (op : UnaryOp)
  | between (op : BinaryOp) (left : Expr)

namespace Opened

/-- How it waits while the sequence is read. -/
def pending : Opened → Pending (Except Failure Expr)
  | before op => ⟨prefixStrength, builder.unary op⟩
  | between op left => ⟨strength op, builder.binary op (.ok left)⟩

/-- The expression with a right side. -/
def close (right : Expr) : Opened → Expr
  | before op => .unary op right
  | between op left => .binary op left right

/-- The words up to the open side. -/
def lexemes : Opened → List Lexeme
  | before op => [.before op]
  | between op left => inOrder left ++ [.between op]

/-- How tightly it binds. -/
def level : Opened → Nat
  | before _ => 6
  | between op _ => Query.level op

/-- An expression can be the right side. -/
def Takes (right : Expr) : Opened → Prop
  | before _ => IsPrefixed right
  | between op _ => Query.level op < tightness right

end Opened

/-- Open operators, the innermost first, of which those between operands bind more tightly than what
they stand in. -/
inductive AreOpen : List Opened → Prop where
  | nil : AreOpen []
  | before (op : UnaryOp) {outer : List Opened} (h : AreOpen outer) : AreOpen (.before op :: outer)
  | between {op : BinaryOp} {left : Expr} {outer : List Opened} (h : AreOpen outer)
    (hleft : IsGrouped left) (hloose : level op ≤ tightness left)
    (htight : ∀ top ∈ outer.head?, top.level < level op) : AreOpen (.between op left :: outer)

/-- The words of open operators. -/
def openLexemes : List Opened → List Lexeme
  | [] => []
  | top :: outer => openLexemes outer ++ top.lexemes

/-- A grouped expression can be the right side of the innermost of the open operators. -/
structure Fits (opened : List Opened) (e : Expr) : Prop where
  grouped : IsGrouped e
  taken : ∀ top ∈ opened.head?, top.Takes e

/-- An operand with operators in front fits behind any operators. -/
theorem IsPrefixed.fits {e : Expr} (h : IsPrefixed e) (opened : List Opened) : Fits opened e := by
  refine ⟨.operand h, fun top _ => ?_⟩
  cases top with
  | before op => exact h
  | between op left =>
    show level op < tightness e
    rw [h.tightness_eq]
    exact level_lt_six op

variable {opened outer : List Opened} {top : Opened} {e : Expr}

/-- What is open without the innermost operator is still open. -/
theorem AreOpen.of_cons (h : AreOpen (top :: outer)) : AreOpen outer := by
  cases h <;> assumption

/-- The innermost operator is closed with an expression that fits. -/
theorem Fits.close (hopen : AreOpen (top :: outer)) (h : Fits (top :: outer) e) :
    Fits outer (top.close e) ∧ tightness (top.close e) = top.level ∧
      openLexemes outer ++ inOrder (top.close e) =
        openLexemes (top :: outer) ++ inOrder e := by
  have htakes := h.taken top rfl
  cases hopen with
  | before op _ =>
    have hprefixed : IsPrefixed (.unary op e) := .unary op htakes
    exact ⟨hprefixed.fits outer, rfl, by simp [openLexemes, Opened.lexemes, Opened.close, inOrder]⟩
  | @between op left _ hopen hleft hloose htight =>
    refine ⟨⟨.binary hleft h.grouped hloose htakes, fun next hnext => ?_⟩, rfl,
      by simp [openLexemes, Opened.lexemes, Opened.close, inOrder]⟩
    have hless := htight next hnext
    cases next with
    | before _ => exact absurd (level_lt_six op) (Nat.lt_asymm hless)
    | between _ _ => exact hless

/-- The closed expression is what the operator makes of its right side. -/
theorem pending_close (top : Opened) (e : Expr) :
    top.pending.close (.ok e) = .ok (top.close e) := by
  cases top <;> rfl

/-- What an open operator waits for has the strength of its level. -/
theorem pending_strength (top : Opened) : top.pending.strength = top.level := by
  cases top with
  | before _ => rfl
  | between op _ => exact strength_eq_level op

/-- The operators that bind at least as tightly as a bound are closed. The words stay the same, and
what waits then binds more loosely. -/
theorem settle_opened (bound : Nat) (hopen : AreOpen opened) (hfits : Fits opened e)
    (hbound : bound ≤ tightness e) :
    ∃ outer value, settle bound (opened.map Opened.pending) (.ok e) =
        (outer.map Opened.pending, .ok value) ∧
      AreOpen outer ∧ Fits outer value ∧ bound ≤ tightness value ∧
      (∀ top ∈ outer.head?, top.level < bound) ∧
      openLexemes outer ++ inOrder value = openLexemes opened ++ inOrder e := by
  induction opened generalizing e with
  | nil => exact ⟨[], e, rfl, hopen, hfits, hbound, fun _ h => (nomatch h), rfl⟩
  | cons top outer ih =>
    rw [List.map_cons, settle, pending_strength, pending_close]
    by_cases hle : bound ≤ top.level
    · obtain ⟨hclosed, htightness, hwords⟩ := hfits.close hopen
      obtain ⟨rest, value, hsettle, hrest⟩ := ih hopen.of_cons hclosed (htightness ▸ hle)
      rw [if_pos hle]
      exact ⟨rest, value, hsettle, hwords ▸ hrest⟩
    · rw [if_neg hle]
      refine ⟨top :: outer, e, rfl, hopen, hfits, hbound, fun other hother => ?_, rfl⟩
      cases hother
      exact Nat.lt_of_not_le hle

/-! ## Sequences -/

/-- A variable with operators before it. -/
structure Prefixed where
  prefixes : List UnaryOp
  name : String

/-- The words of a variable with operators before it. -/
def Prefixed.lexemes (p : Prefixed) : List Lexeme :=
  p.prefixes.map .before ++ [.operand p.name]

/-- The words of operands after a first one. -/
def moreLexemes (more : List (BinaryOp × Prefixed)) : List Lexeme :=
  more.flatMap fun item => .between item.1 :: item.2.lexemes

/-- What a word is for the combination. -/
def Lexeme.token : Lexeme → Token (Except Failure Expr)
  | operand name => .operand (.ok (.var name))
  | before op => .before op
  | between op => .between op

/-- The progress with these operators open. -/
def progress (opened : List Opened) (current : Option Expr) : Progress (Except Failure Expr) :=
  ⟨opened.map Opened.pending, current.map .ok⟩

/-- Operators before an operand are opened one inside the other. -/
theorem foldlM_prefixes (prefixes : List UnaryOp) (hopen : AreOpen opened) :
    ∃ inner, ((prefixes.map Lexeme.before).map Lexeme.token).foldlM (step builder)
        (progress opened none) = some (progress inner none) ∧
      AreOpen inner ∧ openLexemes inner = openLexemes opened ++ prefixes.map .before := by
  induction prefixes generalizing opened with
  | nil => exact ⟨opened, rfl, hopen, (List.append_nil _).symm⟩
  | cons op rest ih =>
    obtain ⟨inner, hfold, hinner, hwords⟩ := ih (hopen.before op)
    refine ⟨inner, ?_, hinner, ?_⟩
    · rw [List.map_cons, List.map_cons, List.foldlM_cons]
      exact hfold
    · rw [hwords]
      simp [openLexemes, Opened.lexemes]

/-- An operand is read up to its variable. -/
theorem foldlM_operand (p : Prefixed) (hopen : AreOpen opened) :
    ∃ inner, (p.lexemes.map Lexeme.token).foldlM (step builder) (progress opened none) =
        some (progress inner (some (.var p.name))) ∧
      AreOpen inner ∧ Fits inner (.var p.name) ∧
      openLexemes inner ++ inOrder (.var p.name) = openLexemes opened ++ p.lexemes := by
  obtain ⟨inner, hfold, hinner, hwords⟩ := foldlM_prefixes p.prefixes hopen
  refine ⟨inner, ?_, hinner, (IsPrefixed.var p.name).fits inner, ?_⟩
  · unfold Prefixed.lexemes
    rw [List.map_append, List.foldlM_append, hfold, Option.bind_eq_bind, Option.bind_some]
    rfl
  · rw [hwords]
    simp [Prefixed.lexemes, inOrder]

/-- The operands after a first one are read, and what is open then has all words. -/
theorem foldlM_more (more : List (BinaryOp × Prefixed)) (hopen : AreOpen opened)
    (hfits : Fits opened e) (htop : tightness e = 6) :
    ∃ inner value, ((moreLexemes more).map Lexeme.token).foldlM (step builder)
        (progress opened (some e)) = some (progress inner (some value)) ∧
      AreOpen inner ∧ Fits inner value ∧
      openLexemes inner ++ inOrder value = openLexemes opened ++ inOrder e ++ moreLexemes more := by
  induction more generalizing opened e with
  | nil => exact ⟨opened, e, rfl, hopen, hfits, (List.append_nil _).symm⟩
  | cons item rest ih =>
    obtain ⟨op, operand⟩ := item
    have hbound : level op ≤ tightness e := htop ▸ Nat.le_of_lt (level_lt_six op)
    obtain ⟨outer, left, hsettle, houter, hleft, hloose, htight, hwords⟩ :=
      settle_opened (level op) hopen hfits hbound
    have hbetween : AreOpen (.between op left :: outer) :=
      .between houter hleft.grouped hloose htight
    obtain ⟨inner, hoperand, hinner, hvar, hread⟩ := foldlM_operand operand hbetween
    obtain ⟨last, value, hfold, hlast, hvalue, hall⟩ := ih hinner hvar rfl
    refine ⟨last, value, ?_, hlast, hvalue, ?_⟩
    · have hstep : step builder (progress opened (some e)) (.between op) =
          some (progress (.between op left :: outer) none) := by
        rw [← strength_eq_level] at hsettle
        unfold step progress
        dsimp only [Option.map]
        rw [hsettle]
        rfl
      have hwritten : (moreLexemes ((op, operand) :: rest)).map Lexeme.token =
          .between op :: (operand.lexemes.map Lexeme.token ++
            (moreLexemes rest).map Lexeme.token) := by
        simp [moreLexemes, Lexeme.token]
      rw [hwritten, List.foldlM_cons, hstep, Option.bind_eq_bind, Option.bind_some,
        List.foldlM_append, hoperand]
      exact hfold
    · rw [hall, hread, openLexemes, ← hwords]
      simp [moreLexemes, Opened.lexemes]

/-- Variables with operators before them and operators between them are combined to a tree that is
grouped by the strength of the operators and that read in order gives the words back. -/
theorem combine_grouped (first : Prefixed) (more : List (BinaryOp × Prefixed)) :
    ∃ e, combine builder ((first.lexemes ++ moreLexemes more).map Lexeme.token) = some (.ok e) ∧
      inOrder e = first.lexemes ++ moreLexemes more ∧ IsGrouped e := by
  obtain ⟨inner, hfirst, hinner, hvar, hread⟩ := foldlM_operand first .nil
  obtain ⟨last, value, hmore, hlast, hvalue, hall⟩ := foldlM_more more hinner hvar rfl
  obtain ⟨outer, e, hsettle, -, he, -, htight, hwords⟩ :=
    settle_opened 0 hlast hvalue (Nat.zero_le _)
  have houter : outer = [] := by
    cases outer with
    | nil => rfl
    | cons top rest => exact absurd (htight top rfl) (Nat.not_lt_zero _)
  subst houter
  refine ⟨e, ?_, ?_, he.grouped⟩
  · have hfold : ((first.lexemes ++ moreLexemes more).map Lexeme.token).foldlM (step builder)
        (progress [] none) = some (progress last (some value)) := by
      rw [List.map_append, List.foldlM_append, hfirst]
      exact hmore
    show ((List.foldlM (step builder) (progress [] none) _).bind fun p => _) = _
    rw [hfold]
    show some (settle 0 (last.map Opened.pending) (.ok value)).2 = _
    rw [hsettle]
  · rw [hall, hread] at hwords
    exact hwords

end RdfStore.Query
