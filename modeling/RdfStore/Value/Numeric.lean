import RdfStore.Number.Numeral
import RdfStore.Query.Basic
import RdfStore.Text.CharClass

/-!
# Numeric values

The numbers that literals denote: integers of 64 bits, decimals and doubles. Decimals are
held as doubles. An operation works in the widest kind of its operands, and the quotient
of two integers is a decimal. An integer result out of range and a decimal division by
zero have no value.
-/

set_option autoImplicit false

namespace RdfStore

open Query (Arithmetic)

/-- A numeric value. -/
inductive Numeric where
  | integer (n : Int)
  | decimal (x : Float)
  | double (x : Float)

namespace Numeric

/-- The kinds of numbers, from the narrowest to the widest. -/
inductive Kind where
  | integer | decimal | double
deriving DecidableEq

/-- The local names of the datatypes whose values are integers. -/
def integerNames : List String :=
  ["integer", "int", "long", "short", "byte", "nonNegativeInteger", "positiveInteger",
   "negativeInteger", "nonPositiveInteger", "unsignedLong", "unsignedInt", "unsignedShort",
   "unsignedByte"]

/-- The kind of numbers that a datatype holds. -/
def Kind.ofDatatype? (datatype : Iri) : Option Kind :=
  let local? := fun names : List String =>
    names.any fun name => datatype.text == Vocabulary.xsdNamespace ++ name
  if local? integerNames then some .integer
  else if local? ["decimal"] then some .decimal
  else if local? ["double", "float"] then some .double
  else none

/-- Reads a number of a kind. -/
def read? (kind : Kind) (text : List Char) : Option Numeric :=
  match kind with
  | .integer => (Integer.read? text).map integer
  | .decimal => (Numeral.decimal? text).map decimal
  | .double => (Numeral.double? text).map double

/-- The number that a literal denotes; white space around it is ignored. -/
def ofLiteral? (l : Literal) : Option Numeric := do
  let kind ← Kind.ofDatatype? l.datatype
  read? kind (Text.trim l.value.toList)

/-- The number that a term denotes. -/
def ofTerm? : Term → Option Numeric
  | .literal l => ofLiteral? l
  | _ => none

/-- The literal that denotes the number. -/
def toTerm : Numeric → Term
  | .integer n => .literal (Literal.ofInt n)
  | .decimal x => .literal (Literal.typed (Numeral.writeDecimal x) Vocabulary.xsdDecimal)
  | .double x => .literal (Literal.typed (Numeral.writeDouble x) Vocabulary.xsdDouble)

/-- The nearest double. -/
def toFloat : Numeric → Float
  | .integer n => Binary64.ofInt n
  | .decimal x => x
  | .double x => x

/-- Whether the number is neither zero nor NaN. -/
def isTrue : Numeric → Bool
  | .integer n => n != 0
  | .decimal x | .double x => !Binary64.isZero x && !Binary64.isNaN x

/-- The order of two numbers; integers compare exactly, NaN with nothing. -/
def compare? : Numeric → Numeric → Option Ordering
  | .integer a, .integer b => some (compare a b)
  | a, b => Binary64.compare? a.toFloat b.toFloat

/-! ## Arithmetic -/

/-- An operation on integers that has an integer result. -/
def onIntegers? : Arithmetic → Int → Int → Option Int
  | .add, a, b => Integer.checked (a + b)
  | .sub, a, b => Integer.checked (a - b)
  | .mul, a, b => Integer.checked (a * b)
  | .div, _, _ => none

/-- An operation on doubles. -/
def onFloats : Arithmetic → Float → Float → Float
  | .add, a, b => a + b
  | .sub, a, b => a - b
  | .mul, a, b => a * b
  | .div, a, b => a / b

/-- An operation on decimals; division by zero has no result. -/
def onDecimals? (op : Arithmetic) (a b : Float) : Option Float :=
  if op = .div && Binary64.isZero b then none else some (onFloats op a b)

/-- The result of an operation. -/
def calculate? (op : Arithmetic) (a b : Numeric) : Option Numeric :=
  match a, b with
  | .integer m, .integer n =>
    if op = .div then (onDecimals? op a.toFloat b.toFloat).map decimal
    else (onIntegers? op m n).map integer
  | .double _, _ | _, .double _ => some (.double (onFloats op a.toFloat b.toFloat))
  | _, _ => (onDecimals? op a.toFloat b.toFloat).map decimal

/-- The number with the other sign. -/
def negate? : Numeric → Option Numeric
  | .integer n => (Integer.checked (-n)).map integer
  | .decimal x => some (.decimal (Binary64.negate x))
  | .double x => some (.double (Binary64.negate x))

/-- The number without its sign. -/
def abs? : Numeric → Option Numeric
  | .integer n => (Integer.checked n.natAbs).map integer
  | .decimal x => some (.decimal (Binary64.abs x))
  | .double x => some (.double (Binary64.abs x))

end Numeric

end RdfStore
