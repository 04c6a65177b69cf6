import RdfStore.Query.Scope

/-!
# Solutions

A solution gives a term, or nothing, to every variable of a query. Variables are known by
their slots, the places at which they first appear in the query. Two solutions are
compatible when they agree where both give a term.
-/

set_option autoImplicit false

/-!
## Errors of execution

A query that mentions a variable without a slot, or that has a blank node of the template
kind in a pattern, cannot be planned. Queries that are read from a text have neither.
Expressions without a value are no errors of this kind; each context says what becomes of
them.
-/

namespace RdfStore.Eval

/-- Why a query cannot run. -/
inductive ExecutionError where
  /-- A variable that has no slot. -/
  | unknownVariable (name : String)
  /-- A blank node of the template kind stands in a pattern. -/
  | blankInPattern (label : String)
deriving DecidableEq

/-- The wording of an error. -/
def ExecutionError.message : ExecutionError → String
  | .unknownVariable name => "Variable not found: " ++ name
  | .blankInPattern label =>
    "Planning error: blank node _:" ++ label ++ " outside of a template"

end RdfStore.Eval

namespace RdfStore.Eval

open Query

/-- Optional terms by slot. -/
abbrev Solution := List (Option Term)

namespace Solution

/-- The solution that gives nothing. -/
def unbound (width : Nat) : Solution := List.replicate width none

/-- The term in a slot. -/
def get? (row : Solution) (slot : Nat) : Option Term := (row[slot]?).join

/-- The solution with a term in a slot; slots up to it are added where they are missing. -/
def bind (slot : Nat) (t : Term) (row : Solution) : Solution :=
  (row ++ List.replicate (slot + 1 - row.length) none).set slot (some t)

/-- The solution with nothing in a slot. -/
def unbind (slot : Nat) (row : Solution) : Solution := row.set slot none

/-- The slots with a term. -/
def boundSlots (row : Solution) : List Nat :=
  row.zipIdx.filterMap fun entry => entry.1.map fun _ => entry.2

/-- Whether two solutions agree in the slots where both give a term. -/
def compatible (a b : Solution) : Bool :=
  (List.zip a b).all fun pair =>
    match pair with
    | (some s, some t) => s == t
    | _ => true

/-- Whether there is a slot where both give a term. -/
def sharesSlot (a b : Solution) : Bool :=
  (List.zip a b).any fun pair => pair.1.isSome && pair.2.isSome

/-- The solution up to its last slot with a term. -/
def trimEnd : Solution → Solution
  | [] => []
  | s :: rest =>
    match s, trimEnd rest with
    | none, [] => []
    | s, rest => s :: rest

/-- The terms of both, the first one's where both give one; slots are added only for terms
of the second. -/
def overlay : Solution → Solution → Solution
  | [], b => trimEnd b
  | a, [] => a
  | s :: a, t :: b => s.or t :: overlay a b

/-- The union of two solutions, if they are compatible. -/
def merge? (a b : Solution) : Option Solution :=
  if compatible a b then some (overlay a b) else none

/-- The solution that keeps the given slots only. -/
def project (slots : List Nat) (row : Solution) : Solution :=
  row.zipIdx.map fun entry => if slots.contains entry.2 then entry.1 else none

end Solution

/-! ## Slots -/

/-- The variables of a query in the order of their slots. -/
abbrev Slots := List String

/-- The slot of a variable. -/
def Slots.slot? (names : Slots) (name : String) : Option Nat := names.idxOf? name

/-- The slot of a variable, which has to have one. -/
def Slots.slotOf (names : Slots) (name : String) : Except ExecutionError Nat :=
  match names.slot? name with
  | some slot => .ok slot
  | none => .error (.unknownVariable name)

/-- The slots of variables, which have to have one. -/
def Slots.slotsOf (names : Slots) : List String → Except ExecutionError (List Nat)
  | [] => .ok []
  | name :: rest => do
    let slot ← names.slotOf name
    return slot :: (← names.slotsOf rest)

/-- The term that a solution gives to a variable. -/
def Slots.value? (names : Slots) (row : Solution) (name : String) : Option Term :=
  (Slots.slot? names name).bind row.get?

/-- The variables to which a solution gives a term. -/
def Slots.boundNames (names : Slots) (row : Solution) : List String :=
  row.boundSlots.filterMap fun slot => names[slot]?

mutual

/-- Adds the variables that a group mentions. -/
def addGroup (names : Slots) : Group → Slots
  | .mk elements => addElements names elements

/-- Adds the variables that elements mention. -/
def addElements (names : Slots) : List Element → Slots
  | [] => names
  | element :: rest => addElements (addElement names element) rest

/-- Adds the variables that an element mentions. -/
def addElement (names : Slots) : Element → Slots
  | .triples patterns => insertNames names (patterns.flatMap Pattern.vars)
  | .filter condition => addExpr names condition
  | .optional group | .group group | .minus group => addGroup names group
  | .union branches => addGroups names branches
  | .bind value name => insertName (addExpr names value) name
  | .data block => insertNames names block.vars

/-- Adds the variables that groups mention. -/
def addGroups (names : Slots) : List Group → Slots
  | [] => names
  | group :: rest => addGroups (addGroup names group) rest

/-- Adds the variables that an expression mentions. -/
def addExpr (names : Slots) : Expr → Slots
  | .var name => insertName names name
  | .const _ => names
  | .binary _ left right => addExpr (addExpr names left) right
  | .unary _ operand => addExpr names operand
  | .call _ args => addExprs names args
  | .member _ operand items => addExprs (addExpr names operand) items
  | .exists _ group => addGroup names group

/-- Adds the variables that expressions mention. -/
def addExprs (names : Slots) : List Expr → Slots
  | [] => names
  | e :: rest => addExprs (addExpr names e) rest

end

/-- Adds the variables of a column. -/
def addItem (names : Slots) : SelectItem → Slots
  | .var name => insertName names name
  | .expr value name => insertName (addExpr names value) name

/-- Adds the variables that the form of a query mentions. -/
def addForm (names : Slots) : Form → Slots
  | .select _ (.items items) => items.foldl addItem names
  | .construct template => insertNames names (template.flatMap Pattern.vars)
  | _ => names

/-- The variables that a query mentions anywhere, in the order of their slots. -/
def slots (q : Query) : Slots :=
  let names := insertNames (addGroup [] q.pattern) (q.data.elim [] DataBlock.vars)
  q.modifiers.orderBy.foldl (fun names condition => addExpr names condition.key)
    (addForm names q.form)

end RdfStore.Eval
