import RdfStore.Peg.Grammar
import RdfStore.Text.Position

/-!
# Matching a text

`Grammar.parse` matches a rule against a text. It answers the nodes that the rules
leave, or the place to blame: the last start of a call of a visible rule that failed.
The work is bounded by the depth of calls. Between two characters no rule of a grammar
without left recursion is entered twice, so the bound that `parse` sets is never met.

Matching follows what the library `pest` documents: choices are ordered, repetitions give nothing
back, blanks and comments are skipped between the parts of sequences and repetitions unless a rule
is atomic, silent rules leave no node, and the error of a failed match stands at the furthest start
of a rule that is not silent. What the library says about such an error in words is left out.
-/

set_option autoImplicit false

namespace RdfStore.Peg

open RdfStore.Text

/-- A node that a rule left: where it starts, what it matched and the nodes inside. -/
inductive ParseTree (R : Type) where
  | node (rule : R) (start : Nat) (text : List Char) (children : List (ParseTree R))

namespace ParseTree

variable {R : Type}

/-- The rule that left the node. -/
def rule : ParseTree R → R
  | .node rule _ _ _ => rule

/-- The index of its first character. -/
def start : ParseTree R → Nat
  | .node _ start _ _ => start

/-- The characters it matched. -/
def text : ParseTree R → List Char
  | .node _ _ text _ => text

/-- The nodes inside it. -/
def children : ParseTree R → List (ParseTree R)
  | .node _ _ _ children => children

/-- The characters it matched, as a string. -/
def string (t : ParseTree R) : String := String.ofList t.text

end ParseTree

/-- Where blanks stand and which calls leave nodes. -/
inductive Mode where
  /-- Blanks are skipped, calls leave nodes. -/
  | words
  /-- No blanks, no nodes. -/
  | token
  /-- No blanks, calls leave nodes. -/
  | compound
deriving DecidableEq

/-- A place in the text, and the place to blame so far. -/
structure State where
  rest : List Char
  index : Nat
  /-- The last start of a failed call of a visible rule. -/
  blame : Nat

/-- How an attempt to match ends. -/
inductive Outcome (R : Type) where
  | matched (nodes : List (ParseTree R)) (state : State)
  | failed (blame : Nat)
  /-- The bound of the work was met. -/
  | exhausted

/-- The rest after the given characters, in either case of ASCII letters if asked. -/
def stripText? (ignoreCase : Bool) : List Char → List Char → Option (List Char)
  | [], rest => some rest
  | _ :: _, [] => none
  | p :: ps, c :: cs =>
    if p = c || (ignoreCase && asciiLower p == asciiLower c) then stripText? ignoreCase ps cs
    else none

/-- Moves past characters. -/
def State.skip (s : State) (count : Nat) : State :=
  if count = 0 then s else { s with rest := s.rest.drop count, index := s.index + count }

section Match

variable {R : Type}

/-- Repeats a step until it fails, at most `fuel` times. -/
def repeatStep (step : State → Outcome R) : Nat → State → Outcome R
  | 0, _ => .exhausted
  | fuel + 1, s =>
    match step s with
    | .matched nodes s₁ =>
      match repeatStep step fuel s₁ with
      | .matched more s₂ => .matched (nodes ++ more) s₂
      | other => other
    | .failed blame => .matched [] { s with blame := blame }
    | .exhausted => .exhausted

/-- Skips the blanks of a grammar where they are allowed. -/
def skipBlanks (g : Grammar R) (mode : Mode) (s : State) : State :=
  match mode with
  | .words => s.skip (g.blanks s.rest)
  | _ => s

/-- Matches an expression; `call` matches the rules and `fuel` bounds repetitions. -/
def matchExpr (g : Grammar R) (call : R → Mode → State → Outcome R) (fuel : Nat) (mode : Mode) :
    Expr R → State → Outcome R
  | .nothing, s => .matched [] s
  | .char isMember, s =>
    match s.rest with
    | c :: rest => if isMember c then .matched [] ⟨rest, s.index + 1, s.blame⟩ else .failed s.blame
    | [] => .failed s.blame
  | .text chars, s =>
    match stripText? false chars s.rest with
    | some rest => .matched [] ⟨rest, s.index + chars.length, s.blame⟩
    | none => .failed s.blame
  | .word chars, s =>
    match stripText? true chars s.rest with
    | some rest => .matched [] ⟨rest, s.index + chars.length, s.blame⟩
    | none => .failed s.blame
  | .rule r, s => call r mode s
  | .seq first second, s =>
    match matchExpr g call fuel mode first s with
    | .matched nodes s₁ =>
      match matchExpr g call fuel mode second (skipBlanks g mode s₁) with
      | .matched more s₂ => .matched (nodes ++ more) s₂
      | other => other
    | other => other
  | .choice first second, s =>
    match matchExpr g call fuel mode first s with
    | .failed blame => matchExpr g call fuel mode second { s with blame := blame }
    | other => other
  | .star item, s =>
    match matchExpr g call fuel mode item s with
    | .matched nodes s₁ =>
      match repeatStep (fun s => matchExpr g call fuel mode item (skipBlanks g mode s)) fuel s₁ with
      | .matched more s₂ => .matched (nodes ++ more) s₂
      | other => other
    | .failed blame => .matched [] { s with blame := blame }
    | .exhausted => .exhausted
  | .notAhead item, s =>
    match matchExpr g call fuel mode item s with
    | .matched _ _ => .failed s.blame
    | .failed _ => .matched [] s
    | .exhausted => .exhausted
  | .ahead item, s =>
    match matchExpr g call fuel mode item s with
    | .matched _ _ => .matched [] s
    | .failed _ => .failed s.blame
    | .exhausted => .exhausted

-- What a repetition has read it does not give back, so no character is left for the text.
example (g : Grammar R) (call : R → Mode → State → Outcome R) :
    matchExpr g call 3 .token (.seq (.star (.char (· = 'a'))) (.text ['a']))
      ⟨['a', 'a', 'b'], 0, 0⟩ = .failed 0 := by
  cbv

/-- The mode in which the body of a rule is matched. -/
def Manner.bodyMode (manner : Manner) (caller : Mode) : Mode :=
  match manner with
  | .words | .silent => caller
  | .token => .token
  | .compound => .compound

/-- Whether a call of the rule leaves a node, or a trace where it fails. -/
def Manner.isVisible (manner : Manner) (caller : Mode) : Bool :=
  match manner with
  | .words | .token => caller != .token
  | .compound => true
  | .silent => false

/-- Matches a rule; `fuel` bounds the depth of calls. -/
def matchRule (g : Grammar R) : Nat → R → Mode → State → Outcome R
  | 0, _, _, _ => .exhausted
  | fuel + 1, r, mode, s =>
    let manner := (g.production r).manner
    match matchExpr g (matchRule g fuel) fuel (manner.bodyMode mode) (g.production r).body s with
    | .matched nodes s₁ =>
      if manner.isVisible mode then
        .matched [.node r s.index (s.rest.take (s₁.index - s.index)) nodes] s₁
      else .matched nodes s₁
    | .failed blame => .failed (if manner.isVisible mode then max blame s.index else blame)
    | .exhausted => .exhausted

/-- Matches a rule at the start of a text. -/
def Grammar.parse (g : Grammar R) (r : R) (cs : List Char) : Except Nat (List (ParseTree R)) :=
  match matchRule g ((cs.length + 2) * g.ruleCount) r .words ⟨cs, 0, 0⟩ with
  | .matched nodes _ => .ok nodes
  | .failed blame => .error blame
  | .exhausted => .error 0

end Match

end RdfStore.Peg
