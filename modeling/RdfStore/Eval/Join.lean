import RdfStore.Eval.Solution
import RdfStore.Store.Basic
import RdfStore.Value.Builtin

/-!
# Joins

How triple patterns are matched against a store, and in which order. A pattern is cheaper
the more of its positions are fixed by constants or by variables that are bound before it;
the cheapest of the patterns that are left comes next, the first of several in the order
of the query. Inline data and the rows of other groups are joined as tables.
-/

set_option autoImplicit false

/-!
## Values of expressions

What an expression is worth at a solution, built from what its parts are worth. An
expression that cannot be evaluated has no value; what that means is up to its context: a
filter drops the solution, an assignment leaves its variable unbound, a sort key counts
as absent.
-/

namespace RdfStore.Eval

open Query

/-- The value at each solution. -/
abbrev Valuation := Solution → Option Term

namespace Valuation

/-- The value as a condition. -/
def truth? (v : Valuation) (row : Solution) : Option Bool := (v row).bind Truth.ofTerm?

/-- Whether the condition holds; one without a value does not. -/
def holds (v : Valuation) (row : Solution) : Bool := v.truth? row == some true

/-- The value of a variable. -/
def var (names : Slots) (name : String) : Valuation := fun row => names.value? row name

/-- A constant. -/
def const (t : Term) : Valuation := fun _ => some t

/-- The value of two operands under an operator. -/
def binary (op : BinaryOp) (left right : Valuation) : Valuation := fun row =>
  match op with
  | .or => (Truth.or? (left.truth? row) fun _ => right.truth? row).map Truth.toTerm
  | .and => (Truth.and? (left.truth? row) fun _ => right.truth? row).map Truth.toTerm
  | .compare c => do
    let a ← left row
    let b ← right row
    return Truth.toTerm (← compareTerms? c a b)
  | .calculate op => do
    let a ← (left row).bind Numeric.ofTerm?
    let b ← (right row).bind Numeric.ofTerm?
    return (← Numeric.calculate? op a b).toTerm

/-- The value of an operand under an operator. -/
def unary (op : UnaryOp) (operand : Valuation) : Valuation := fun row => do
  let t ← operand row
  match op with
  | .not => return Truth.toTerm (!(← Truth.ofTerm? t))
  | .plus => return (← Numeric.ofTerm? t).toTerm
  | .minus => return (← (← Numeric.ofTerm? t).negate?).toTerm

/-- Whether a term equals one of the items; `none` where none does and some item has no value
or cannot be compared. -/
def isMember? (t : Term) (row : Solution) : List Valuation → Option Bool
  | [] => some false
  | item :: rest =>
    match (item row).bind fun u => compareTerms? .eq t u with
    | some true => some true
    | some false => isMember? t row rest
    | none => if isMember? t row rest = some true then some true else none

/-- Membership in a list, or its negation. -/
def member (negated : Bool) (operand : Valuation) (items : List Valuation) : Valuation :=
    fun row => do
  let t ← operand row
  return Truth.toTerm ((← isMember? t row items) != negated)

/-- Whether a group has a solution, or its negation; `none` where looking for one fails. -/
def «exists» (negated : Bool) (isFound : Solution → Option Bool) : Valuation := fun row =>
  (isFound row).map fun found => Truth.toTerm (found != negated)

/-- The value of the first argument that has one. -/
def first? (row : Solution) : List Valuation → Option Term
  | [] => none
  | arg :: rest => (arg row).or (first? row rest)

/-- The value of a function; three of them do not need the values of all arguments. -/
def call (f : Function) (args : List Valuation) : Valuation := fun row =>
  match f, args with
  | .bound, [arg] => some (Truth.toTerm (arg row).isSome)
  | .cond, [condition, yes, no] => do
    if ← condition.truth? row then yes row else no row
  | .coalesce, args => first? row args
  | _, _ => do Builtin.value? f (← args.mapM fun arg => arg row)

end Valuation

end RdfStore.Eval

namespace RdfStore.Eval

open Query

/-- What a query runs on: a store, and the variables of the query. -/
structure Env where
  store : Store
  names : Slots

/-! ## Matching one pattern -/

/-- A position of a pattern whose variables are known by their slots. -/
inductive Position where
  | constant (t : Term)
  | slot (n : Nat)

namespace Position

/-- The position at which a place of a pattern stands; blank nodes have no meaning here. -/
def ofPlace (names : Slots) : Place → Except ExecutionError Position
  | .term t => .ok (constant t)
  | .var name => (names.slotOf name).map slot
  | .blank label => .error (.blankInPattern label)

/-- The term that a position asks for at a solution, if it is fixed. -/
def wanted (row : Solution) : Position → Option Term
  | constant t => some t
  | slot n => row.get? n

/-- The solution with a term at a position; a variable that has another term already gives
none. The term of a constant is not looked at, as the store was asked for it. -/
def accept? (t : Term) (row : Solution) : Position → Option Solution
  | constant _ => some row
  | slot n =>
    match row.get? n with
    | some u => if u = t then some row else none
    | none => some (row.bind n t)

end Position

/-- A pattern whose variables are known by their slots. -/
structure Scan where
  subject : Position
  predicate : Position
  object : Position

namespace Scan

/-- The scan for a pattern. -/
def ofPattern (names : Slots) (p : Pattern) : Except ExecutionError Scan := do
  let subject ← Position.ofPlace names p.subject
  let predicate ← Position.ofPlace names p.predicate
  let object ← Position.ofPlace names p.object
  return ⟨subject, predicate, object⟩

/-- The solution extended by a stored triple. -/
def accept? (scan : Scan) (row : Solution) (t : Store.TermTriple) : Option Solution := do
  let row ← scan.subject.accept? t.subject row
  let row ← scan.predicate.accept? t.predicate row
  scan.object.accept? t.object row

/-- The solutions that extend a solution by a stored triple that matches a pattern. -/
def rows (s : Store) (scan : Scan) (row : Solution) : List Solution :=
  (s.matching (scan.subject.wanted row) (scan.predicate.wanted row)
    (scan.object.wanted row)).filterMap (scan.accept? row)

end Scan

/-! ## The order of patterns -/

/-- How many positions of a pattern are fixed. -/
def fixedCount (bound : List String) (p : Pattern) : Nat :=
  (p.places.filter fun place => place.var?.all fun name => bound.contains name).length

/-- The cheapest pattern, the first of several, and the other patterns. -/
def cheapest? (bound : List String) : List Pattern → Option (Pattern × List Pattern)
  | [] => none
  | p :: rest =>
    match cheapest? bound rest with
    | some (q, others) =>
      if fixedCount bound p < fixedCount bound q then some (q, p :: others) else some (p, rest)
    | none => some (p, [])

/-- Taking the cheapest pattern out leaves fewer patterns. -/
theorem cheapest?_length {bound : List String} {patterns others : List Pattern} {p : Pattern}
    (h : cheapest? bound patterns = some (p, others)) : others.length < patterns.length := by
  induction patterns generalizing p others with
  | nil => cases h
  | cons q rest ih =>
    unfold cheapest? at h
    split at h
    · rename_i r more hr
      have := ih hr
      split at h <;> cases h <;> simp only [List.length_cons] <;> omega
    · cases h
      simp only [List.length_nil, List.length_cons]
      omega

/-- The patterns in the order in which they are joined, given the variables that are bound
before. -/
def joinOrder (bound : List String) (patterns : List Pattern) : List Pattern :=
  match _h : cheapest? bound patterns with
  | none => []
  | some (p, others) => p :: joinOrder (bound ++ p.vars) others
termination_by patterns.length
decreasing_by exact cheapest?_length _h

/-! ## Tables -/

/-- The solution that gives the values of a row of inline data to slots. -/
def dataRow (width : Nat) (slots : List Nat) (values : List (Option Term)) : Solution :=
  (slots.zip values).foldl (fun row entry =>
    match entry.2 with
    | some t => row.bind entry.1 t
    | none => row) (Solution.unbound width)

/-- The solutions of inline data. -/
def dataRows (names : Slots) (block : DataBlock) : Except ExecutionError (List Solution) :=
  (names.slotsOf block.vars).map fun slots => block.rows.map (dataRow names.length slots)

/-- The solution with a slot bound to a value; without a value it stays as it is. -/
def assign (slot : Nat) (value : Valuation) (row : Solution) : Solution :=
  match value row with
  | some t => row.bind slot t
  | none => row

/-- The solutions that merge a solution with compatible rows of a table. -/
def joinTable (table : List Solution) (row : Solution) : List Solution :=
  table.filterMap fun other => Solution.merge? row other

/-- Whether a row of a table agrees with a solution on a variable that both bind. -/
def excludedBy (table : List Solution) (row : Solution) : Bool :=
  table.any fun other => Solution.sharesSlot row other && Solution.compatible row other

/-- The solution alone, unless a row of a table excludes it. -/
def keepUnlessExcluded (table : List Solution) (row : Solution) : List Solution :=
  if excludedBy table row then [] else [row]

/-- The extensions of a solution, or else the solution itself. -/
def orKeep (row : Solution) : List Solution → List Solution
  | [] => [row]
  | extensions => extensions

end RdfStore.Eval
