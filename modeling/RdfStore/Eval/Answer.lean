import RdfStore.Eval.Join
import RdfStore.Eval.Plan
import RdfStore.Sorting.Stable

/-!
# Answers

The plan of a whole query, and its answer: a table, a truth value or a graph. The plan of
the pattern is joined with the data at the end of the query; a table then gets its
computed columns, is sorted, projected, freed of repetitions and cut, in this order.

The order of sort keys is not transitive (an integer and a decimal can tie as doubles and still be
told apart from other integers), so the sort can stop the program. Whether it does is said by
`stops`; what is said of plans and of `execute` is about the runs in which it does not.
-/

set_option autoImplicit false

/-!
## Templates

The graph that a template makes of solutions. A blank node of the template is a new node
for every solution, named `c0`, `c1`, … past the names that the store knows. A triple
without a term for some position, or with one that cannot stand there, is left out;
`construct` keeps the first of equal triples.
-/

namespace RdfStore.Eval

open Query

/-- The number of the next name, and the nodes of the labels used for a solution so far. -/
structure Minting where
  counter : Nat
  nodes : List (String × BlankNode)

/-- The first free name from a number on, trying at most `fuel + 1`, and the number after it. -/
def freeName (s : Store) : Nat → Nat → BlankNode × Nat
  | 0, counter => (⟨"c" ++ toString counter⟩, counter + 1)
  | fuel + 1, counter =>
    let node : BlankNode := ⟨"c" ++ toString counter⟩
    if s.containsTerm (.blank node) then freeName s fuel (counter + 1) else (node, counter + 1)

/-- The node of a label, which is a new one when the label is first used. -/
def mint (s : Store) (m : Minting) (label : String) : BlankNode × Minting :=
  match m.nodes.lookup label with
  | some node => (node, m)
  | none =>
    let (node, counter) := freeName s s.termCount m.counter
    (node, ⟨counter, (label, node) :: m.nodes⟩)

/-- The term at a position of the template, if there is one. -/
def instantiatePlace (env : Env) (row : Solution) (m : Minting) : Place → Option Term × Minting
  | .term t => (some t, m)
  | .var name => (env.names.value? row name, m)
  | .blank label =>
    let (node, m) := mint env.store m label
    (some (.blank node), m)

/-- The terms at positions up to the first that has none. -/
def instantiatePlaces (env : Env) (row : Solution) (m : Minting) :
    List Place → List Term × Minting
  | [] => ([], m)
  | place :: rest =>
    match instantiatePlace env row m place with
    | (none, m) => ([], m)
    | (some t, m) =>
      let (terms, m) := instantiatePlaces env row m rest
      (t :: terms, m)

/-- The triple of three terms. -/
def tripleOf? : List Term → Option Triple
  | [subject, predicate, object] => Triple.ofTerms? subject predicate object
  | _ => none

/-- The triples of a template for one solution. -/
def instantiate (env : Env) (row : Solution) (m : Minting) :
    List Pattern → List Triple × Minting
  | [] => ([], m)
  | p :: rest =>
    let (terms, m) := instantiatePlaces env row m p.places
    let (triples, m) := instantiate env row m rest
    ((tripleOf? terms).toList ++ triples, m)

/-- The triples of a template for all solutions. -/
def instantiateAll (env : Env) (template : List Pattern) (counter : Nat) :
    List Solution → List Triple
  | [] => []
  | row :: rest =>
    let (triples, m) := instantiate env row ⟨counter, []⟩ template
    triples ++ instantiateAll env template m.counter rest

/-- The graph of a template and solutions. -/
def construct (env : Env) (template : List Pattern) (rows : List Solution) : List Triple :=
  (instantiateAll env template 0 rows).eraseDups

end RdfStore.Eval

namespace RdfStore.Eval

open Query

/-! ## Sorting -/

/-- A direction and the value to sort by. -/
structure SortKey where
  ascending : Bool
  value : Valuation

/-- The order of two rows by the values of their keys. -/
def compareKeys : List SortKey → List (Option Term) → List (Option Term) → Ordering
  | key :: keys, a :: as, b :: bs =>
    let o := sortOrder a b
    (if key.ascending then o else o.swap).then (compareKeys keys as bs)
  | _, _, _ => .eq

/-- A row with the values to sort it by, which are computed once. -/
def keyed (keys : List SortKey) (row : Solution) : List (Option Term) × Solution :=
  (keys.map fun key => key.value row, row)

/-- The order of two rows by the values that were computed for them. -/
def compareKeyed (keys : List SortKey) (a b : List (Option Term) × Solution) : Ordering :=
  compareKeys keys a.1 b.1

/-- The rows as they are sorted by their keys, if the sort does not stop the program. Rows with equal
keys keep their places. -/
def sortRows? (keys : List SortKey) (rows : List Solution) : Option (List Solution) :=
  (Sorting.stableSort? (compareKeyed keys) (rows.map (keyed keys))).map (·.map Prod.snd)

/-- The rows in the order of their keys. If the keys of three rows form a cycle, the rows have no
order, and the outcome is whatever the sort makes of them; in a run that the sort stops there is no
outcome, and the rows stand here as they came. -/
def sortRows (keys : List SortKey) (rows : List Solution) : List Solution :=
  (sortRows? keys rows).getD rows

/-! ## Plans of queries -/

/-- The keys that a query sorts by. -/
def sortKeys (env : Env) (m : Modifiers) : List SortKey :=
  m.orderBy.map fun condition => ⟨condition.ascending, (planValue env condition.key).down⟩

/-- Sorts the rows if there is anything to sort by. -/
def sorted (env : Env) (m : Modifiers) (input : SolutionCursor) : SolutionCursor :=
  if m.orderBy.isEmpty then input else input.whole (sortRows (sortKeys env m))

/-- Cuts the rows to the slice that a query asks for. -/
def sliced (m : Modifiers) (input : SolutionCursor) : SolutionCursor :=
  let rest := if m.offset = 0 then input else input.drop m.offset
  match m.limit with
  | some count => rest.take count
  | none => rest

/-- The rows with the computed columns. -/
def withItems (env : Env) : List SelectItem → SolutionCursor → Except ExecutionError SolutionCursor
  | [], input => .ok input
  | .var _ :: rest, input => withItems env rest input
  | .expr value name :: rest, input =>
    (env.names.slotOf name).bind fun slot =>
      withItems env rest (input.map (assign slot (planValue env value).down))

/-- The columns of a table; other forms have none. -/
def outputColumns (q : Query) : List String :=
  match q.form with
  | .select _ _ => columns q
  | _ => []

/-- The solutions of the pattern joined with the data at the end of the query. -/
def planPattern (env : Env) (q : Query) : Except ExecutionError SolutionCursor :=
  (groupPlan env q.pattern (.unbound env.names.length)).bind fun input =>
    match q.data with
    | some block => (dataRows env.names block).map fun table =>
      input.flatMap fun row => .ok (joinTable table row)
    | none => .ok input

/-- The solutions of the pattern shaped for the form of the query; the slots are those of its
columns. -/
def planForm (env : Env) (q : Query) (slots : List Nat) (input : SolutionCursor) :
    Except ExecutionError SolutionCursor :=
  match q.form with
  | .ask => .ok input
  | .construct _ => .ok (sliced q.modifiers (sorted env q.modifiers input))
  | .select duplicates projection =>
    let items := match projection with
      | .all => []
      | .items items => items
    (withItems env items input).map fun input =>
      let projected := (sorted env q.modifiers input).map (Solution.project slots)
      sliced q.modifiers (if duplicates = .keep then projected else projected.distinct)

/-- A cursor over the solutions of a query, and the columns of its table with their slots. -/
structure Plan where
  root : SolutionCursor
  columns : List String
  slots : List Nat

/-- The plan of a query. -/
def plan (env : Env) (q : Query) : Except ExecutionError Plan :=
  (planPattern env q).bind fun input =>
    (env.names.slotsOf (outputColumns q)).bind fun slots =>
      (planForm env q slots input).map fun root => ⟨root, outputColumns q, slots⟩

/-! ## Answers -/

/-- What a query answers. -/
inductive Answer where
  | solutions (columns : List String) (rows : List (List (Option Term)))
  | boolean (value : Bool)
  | graph (triples : List Triple)

/-- How many rows or triples an answer has; a truth value counts as one. -/
def Answer.size : Answer → Nat
  | .solutions _ rows => rows.length
  | .boolean _ => 1
  | .graph triples => triples.length

/-- What a query runs on. -/
def envOf (s : Store) (q : Query) : Env := ⟨s, slots q⟩

/-- Reads the answer off a plan. -/
def Plan.answer (env : Env) (form : Form) (p : Plan) : Except ExecutionError Answer :=
  match form with
  | .select _ _ => p.root.toList.map fun rows =>
    .solutions p.columns (rows.map fun row => p.slots.map row.get?)
  | .ask => p.root.isInhabited.map .boolean
  | .construct template => p.root.toList.map fun rows => .graph (construct env template rows)

/-- What a query answers when it is run. -/
def execute (s : Store) (q : Query) : Except ExecutionError Answer :=
  let env := envOf s q
  (plan env q).bind (Plan.answer env q.form)

/-! ## Runs -/

/-- The solutions of a query before they are sorted. -/
def planUnsorted (env : Env) (q : Query) : Except ExecutionError SolutionCursor :=
  (planPattern env q).bind (withItems env q.form.items)

/-- Whether rows are sorted for the answer: a truth value does not depend on their order, and no row
is asked for if none is to be returned. -/
def isSorting (q : Query) : Bool :=
  match q.form with
  | .ask => false
  | _ => !q.modifiers.orderBy.isEmpty && q.modifiers.limit != some 0

/-- Whether running a query stops the program. -/
def stops (s : Store) (q : Query) : Bool :=
  let env := envOf s q
  match plan env q, (planUnsorted env q).bind Cursor.toList with
  | .ok _, .ok rows => isSorting q && (sortRows? (sortKeys env q.modifiers) rows).isNone
  | _, _ => false

/-- How running a query ends. -/
inductive Ending where
  /-- The program is stopped. -/
  | stopped
  | returned (outcome : Except ExecutionError Answer)

/-- Runs a query. -/
def run (s : Store) (q : Query) : Ending :=
  if stops s q then .stopped else .returned (execute s q)

end RdfStore.Eval
