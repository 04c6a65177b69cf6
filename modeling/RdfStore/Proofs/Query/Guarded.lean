import RdfStore.Proofs.Turtle.Parts
import RdfStore.Query.Grammar

/-!
# The grammar of queries is guarded

The grammar of queries skips the blanks of Turtle and has the tokens of Turtle, and no rule of it
calls itself before it has read a character. So what its rules read is parsed, and the first
character of a text tells what they refuse.
-/

set_option autoImplicit false

namespace RdfStore.Query

open RdfStore.Peg RdfStore.Syntax RdfStore.Text
open RdfStore.Turtle (wordsOf isWordStart)

instance : grammar.HasBlanks := ⟨Turtle.blankLengthFrom_le false⟩

/-- The tokens of the grammar are the shared ones. -/
theorem hasTokens : HasTokens grammar Symbol.terminal := ⟨fun _ => rfl⟩

/-- The rules that read a character whenever they match. -/
def readsCharacter : Symbol → Bool
  | .terminal t => Turtle.readsCharacter (.terminal t)
  | .prologue | .templateAsPattern | .modifiers | .groupContent | .endOfText => false
  | _ => true

/-- The rank of a rule: above those of the rules it calls before a character is read. -/
def rank : Symbol → Nat
  | .terminal t => Turtle.rank (.terminal t)
  | .query => 7
  | .propertyList => 6
  | .path => 5
  | .pathSequence | .groupContent | .templateAsPattern => 4
  | .pathElement | .triplesBlock | .templateTriples | .expression | .groupCondition
  | .orderCondition => 3
  | .pathPrimary | .pathStep | .sameSubject | .objectList | .iriOrCall => 2
  | .prologue | .selectQuery | .selectItem | .whereClause | .modifiers | .singleColumn | .subquery
  | .unionPattern | .expressionList | .aggregate | .builtinCall | .arguments | .literal => 1
  | _ => 0

/-- No rule of the grammar calls itself before it has read a character. -/
theorem isGuarded_grammar : grammar.IsGuarded readsCharacter rank where
  consumes r := by
    cases r with
    | terminal t => cases t <;> decide
    | infixOp op => cases op with
      | compare c => cases c <;> decide
      | calculate a => cases a <;> decide
      | _ => decide
    | prefixOp op => cases op <;> decide
    | memberOp negated | «exists» negated => cases negated <;> decide
    | _ => decide
  guarded r := by
    cases r with
    | terminal t => cases t <;> decide
    | memberOp negated | «exists» negated => cases negated <;> decide
    | infixOp op | prefixOp op => rfl
    | _ => decide
  rank_lt r := by
    show rank r < 150
    unfold rank
    split
    · exact Nat.lt_trans (Turtle.isGuarded_grammar.rank_lt _) (by decide)
    all_goals decide

/-- Where the first character tells that an expression fails, it is refused. -/
theorem refuses_of_head {c : Char} {e : Phrase} (hword : isWordStart c = true)
    (h : e.peek (grammar.peek (some c) 6) (some c) = .fails) (rest : List Char) :
    Refuses grammar .words e (c :: rest) :=
  refuses_of_peek (fun _ => Turtle.blankLength_cons hword rest) 6 h

/-- At the end of the text nothing is read. -/
theorem refuses_end {e : Phrase} (h : e.peek (grammar.peek none 6) none = .fails) :
    Refuses grammar .words e [] :=
  refuses_of_peek (fun _ => rfl) 6 h

end RdfStore.Query
