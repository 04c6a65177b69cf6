import RdfStore.Value.Numeric

/-!
# Comparing terms

`compareTerms?` is what the comparison operators do: terms of different sorts are unequal
or cannot be compared at all. `sortOrder` is the order of sort keys, which places every
pair: absent values first, then blank nodes, IRIs and literals, and among literals
numbers, booleans, strings and the others.
-/

set_option autoImplicit false

namespace RdfStore

open Query (Comparison)

/-- The sort of value that a term has in comparisons. -/
inductive Comparand where
  | numeric (n : Numeric)
  | string (value : String) (language : Option String)
  | boolean (b : Bool)
  /-- A literal that is none of the above. -/
  | other (value : String) (datatype : Iri)
  | iri (node : Iri)
  | blank (node : BlankNode)

namespace Comparand

/-- The value of a boolean literal. -/
def boolean? (l : Literal) : Option Bool :=
  if l.datatype = Vocabulary.xsdBoolean then
    if l.value = "true" ∨ l.value = "1" then some true
    else if l.value = "false" ∨ l.value = "0" then some false
    else none
  else none

/-- The value of a literal. -/
def ofLiteral (l : Literal) : Comparand :=
  if l.isPlain then .string l.value l.language?
  else
    match boolean? l, Numeric.ofLiteral? l with
    | some b, _ => .boolean b
    | none, some n => .numeric n
    | none, none => .other l.value l.datatype

/-- The value of a term. -/
def ofTerm : Term → Comparand
  | .iri node => .iri node
  | .blank node => .blank node
  | .literal l => ofLiteral l

/-- Whether the term is no literal. -/
def isNode : Comparand → Bool
  | .iri _ | .blank _ => true
  | _ => false

end Comparand

/-- How two values are related. -/
inductive Relation where
  | ordered (o : Ordering)
  /-- Different, without an order; only equality can be asked. -/
  | different
  /-- NaN is involved: no comparison but inequality holds. -/
  | unordered
  /-- The values are the same, but they have no order. -/
  | same
  /-- No comparison has an answer. -/
  | incomparable

/-- The relation of two values. -/
def Comparand.relate : Comparand → Comparand → Relation
  | .numeric a, .numeric b => (a.compare? b).elim .unordered .ordered
  | .string a la, .string b lb => if la = lb then .ordered (compare a b) else .different
  | .boolean a, .boolean b => .ordered (compare a b)
  | .iri a, .iri b => if a = b then .same else .different
  | .blank a, .blank b => if a = b then .same else .different
  | .other a da, .other b db => if da = db then .ordered (compare a b) else .different
  | a, b => if a.isNode = b.isNode then .different else .incomparable

namespace Query.Comparison

/-- Whether the comparison asks for an order. -/
def isEquality : Comparison → Bool
  | .eq | .ne => true
  | _ => false

/-- The answer of a comparison about ordered values. -/
def holds : Comparison → Ordering → Bool
  | .eq, o => o.isEq
  | .ne, o => o.isNe
  | .lt, o => o.isLT
  | .le, o => o.isLE
  | .gt, o => o.isGT
  | .ge, o => o.isGE

/-- The answer of a comparison about values with a relation. -/
def decide? (c : Comparison) : Relation → Option Bool
  | .ordered o => some (c.holds o)
  | .unordered => some (c == .ne)
  | .different => if c.isEquality then some (c == .ne) else none
  | .same => if c.isEquality then some (c == .eq) else none
  | .incomparable => none

end Query.Comparison

/-- The answer of a comparison of two terms, if it has one. -/
def compareTerms? (c : Comparison) (a b : Term) : Option Bool :=
  c.decide? ((Comparand.ofTerm a).relate (Comparand.ofTerm b))

/-! ## Sorting -/

/-- The place of a literal among literals. -/
def Literal.family (l : Literal) : Nat :=
  if (Numeric.ofLiteral? l).isSome then 0
  else if l.datatype = Vocabulary.xsdBoolean then 1
  else if l.isPlain then 2
  else 3

/-- The order of literals by what they denote. -/
def Literal.valueOrder (a b : Literal) : Ordering :=
  match Numeric.ofLiteral? a, Numeric.ofLiteral? b with
  | some (.integer m), some (.integer n) => compare m n
  | some x, some y => Binary64.totalOrder x.toFloat y.toFloat
  | _, _ => (compare a.family b.family).then (compare a.value b.value)

/-- The order of literals as sort keys. -/
def Literal.sortOrder (a b : Literal) : Ordering :=
  (a.valueOrder b).then
    ((compare a.datatype.text b.datatype.text).then
      ((compare a.language? b.language?).then (compare a.value b.value)))

/-- The place of an optional term among the sorts of terms. -/
def sortRank : Option Term → Nat
  | none => 0
  | some (.blank _) => 1
  | some (.iri _) => 2
  | some (.literal _) => 3

/-- The order of sort keys. -/
def sortOrder : Option Term → Option Term → Ordering
  | some (.blank a), some (.blank b) => compare a.label b.label
  | some (.iri a), some (.iri b) => compare a.text b.text
  | some (.literal a), some (.literal b) => a.sortOrder b
  | a, b => compare (sortRank a) (sortRank b)

end RdfStore
