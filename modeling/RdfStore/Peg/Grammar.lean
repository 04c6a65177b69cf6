import RdfStore.Text.CharClass

/-!
# Grammars

Parsing expressions over the rules of a grammar: ordered choice, greedy repetition that
never gives back what it took, and look-ahead. A grammar gives every rule a body and a
manner. Rules made of words allow blanks and comments between their parts; rules that
read a single token do not, and with them none of the rules they call.
-/

set_option autoImplicit false

namespace RdfStore.Peg

/-- A parsing expression that may call the rules `R`. -/
inductive Expr (R : Type) where
  /-- Matches nothing and succeeds. -/
  | nothing
  /-- One character of a class. -/
  | char (isMember : Char → Bool)
  /-- The given characters. -/
  | text (chars : List Char)
  /-- The given characters, in either case of ASCII letters. -/
  | word (chars : List Char)
  /-- A call of a rule. -/
  | rule (r : R)
  /-- One expression and then the other, with blanks between them where they are allowed. -/
  | seq (first second : Expr R)
  /-- The first expression, or the second where the first fails. -/
  | choice (first second : Expr R)
  /-- The expression as often as it matches. -/
  | star (item : Expr R)
  /-- Succeeds without reading where the expression fails. -/
  | notAhead (item : Expr R)
  /-- Succeeds without reading where the expression matches. -/
  | ahead (item : Expr R)

/-- How a rule is matched. -/
inductive Manner where
  /-- Blanks and comments may stand between its parts, unless its caller forbids them. -/
  | words
  /-- No blanks; the rules it calls leave neither a node nor a trace. -/
  | token
  /-- No blanks; the rules it calls leave their nodes. -/
  | compound
  /-- As its caller is matched; the rule itself leaves neither a node nor a trace. -/
  | silent
deriving DecidableEq

/-- A rule's manner and body. -/
structure Production (R : Type) where
  manner : Manner
  body : Expr R

/-- A grammar: its rules, how many there are, and the blanks between words. -/
structure Grammar (R : Type) where
  production : R → Production R
  /-- An upper bound of the number of rules. -/
  ruleCount : Nat
  /-- How many characters at the start of a text are blanks and comments. -/
  blanks : List Char → Nat

namespace Expr

variable {R : Type}

/-- An expression or nothing. -/
def opt (e : Expr R) : Expr R := .choice e .nothing

/-- An expression at least once. -/
def plus (e : Expr R) : Expr R := .seq e (.star e)

/-- Expressions one after the other. -/
def seqs : List (Expr R) → Expr R
  | [] => .nothing
  | [e] => e
  | e :: es => .seq e (seqs es)

/-- The first of the expressions that matches. -/
def choices : List (Expr R) → Expr R
  | [] => .notAhead .nothing
  | [e] => e
  | e :: es => .choice e (choices es)

/-- The characters of a string. -/
def lit (s : String) : Expr R := .text s.toList

/-- A word in either case. -/
def keyword (s : String) : Expr R := .word s.toList

/-- Any character. -/
def any : Expr R := .char fun _ => true

/-- One character. -/
def one (c : Char) : Expr R := .char (· == c)

end Expr

end RdfStore.Peg
