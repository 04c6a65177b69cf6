import RdfStore.Regex.Reader
import RdfStore.Value.Compare
import RdfStore.Value.Numeric

/-!
# Truth values and built-in functions

Terms as conditions, and the connectives of a logic in which a condition may have no
value. A disjunction is true as soon as one side is, a conjunction false as soon as one
side is, whatever the other side.

The functions whose arguments all have values. A function of a term of the wrong sort has
no value. The functions on strings keep the language of their first argument.
-/

set_option autoImplicit false

/-!
## Casts

Conversions between datatypes. A cast takes IRIs (to strings only) and literals without a
language; the text of a string is read in the target's own form.
-/

namespace RdfStore.Cast

open Query (CastTarget)

/-- The truth value that a text writes. -/
def readBoolean? (text : List Char) : Option Bool :=
  if text = "true".toList ∨ text = "1".toList then some true
  else if text = "false".toList ∨ text = "0".toList then some false
  else none

/-- Numbers at or beyond this distance from zero are not cut to integers. -/
def integerBound : Nat := 9200000000000000000

/-- The integer part of a double. -/
def toInteger? (x : Float) : Option Int :=
  if Binary64.isFinite x ∧ (Binary64.truncate x).natAbs < integerBound then
    some (Binary64.truncate x)
  else none

/-- The truth value of a literal. -/
def boolean? (l : Literal) : Option Bool :=
  match Comparand.ofLiteral l with
  | .boolean b => some b
  | .numeric n => some n.isTrue
  | .string _ _ => readBoolean? (Text.trim l.value.toList)
  | _ => none

/-- The integer of a literal. -/
def integer? (l : Literal) : Option Int :=
  match Comparand.ofLiteral l with
  | .numeric (.integer n) => some n
  | .numeric n => toInteger? n.toFloat
  | .boolean b => some (if b then 1 else 0)
  | .string _ _ => Integer.read? (Text.trim l.value.toList)
  | _ => none

/-- The double of a literal; the text of a string is read by the given reader. -/
def float? (read? : List Char → Option Float) (l : Literal) : Option Float :=
  match Comparand.ofLiteral l with
  | .numeric n => some n.toFloat
  | .boolean b => some (Binary64.ofInt (if b then 1 else 0))
  | .string _ _ => read? (Text.trim l.value.toList)
  | _ => none

/-- A literal as a literal of the target. -/
def literal? (target : CastTarget) (l : Literal) : Option Term :=
  match target with
  | .string => some (.literal (Literal.plain l.value))
  | .boolean => (boolean? l).map fun b => .literal (Literal.ofBool b)
  | .integer => (integer? l).map fun n => (Numeric.integer n).toTerm
  | .decimal =>
    ((float? Numeral.decimal? l).filter Binary64.isFinite).map fun x => (Numeric.decimal x).toTerm
  | .double => (float? Numeral.double? l).map fun x => (Numeric.double x).toTerm

/-- A term as a literal of the target. -/
def term? (target : CastTarget) : Term → Option Term
  | .iri node => if target = .string then some (.literal (Literal.plain node.text)) else none
  | .blank _ => none
  | .literal l => if l.language?.isSome then none else literal? target l

end RdfStore.Cast

namespace RdfStore

/-! ## Truth values -/

namespace Truth

/-- The truth value of a term, if it has one. A boolean or number of ill-formed text is
false. -/
def ofTerm? : Term → Option Bool
  | .literal l =>
    if l.isSimple then some (l.value != "")
    else if l.datatype = Vocabulary.xsdBoolean then some (l.value == "true" || l.value == "1")
    else if (Numeric.Kind.ofDatatype? l.datatype).isSome then
      some ((Numeric.ofLiteral? l).any Numeric.isTrue)
    else none
  | _ => none

/-- The literal of a truth value. -/
def toTerm (b : Bool) : Term := .literal (Literal.ofBool b)

/-- Disjunction; the right side is looked at only where the left one does not decide. -/
def or? (left : Option Bool) (right : Unit → Option Bool) : Option Bool :=
  match left with
  | some true => some true
  | some false => right ()
  | none => if right () = some true then some true else none

/-- Conjunction; the right side is looked at only where the left one does not decide. -/
def and? (left : Option Bool) (right : Unit → Option Bool) : Option Bool :=
  match left with
  | some false => some false
  | some true => right ()
  | none => if right () = some false then some false else none

end Truth

/-! ## Functions -/

namespace Builtin

open Query (Function)

/-- A string literal: plain or in a language. -/
def string? : Term → Option Literal
  | .literal l => if l.isPlain then some l else none
  | _ => none

/-- The text of a literal without language. -/
def simple? : Term → Option (List Char)
  | .literal l => if l.isSimple then some l.value.toList else none
  | _ => none

/-- A plain literal. -/
def plain (text : List Char) : Term := .literal (Literal.plain (String.ofList text))

/-- A string literal with the language of another. -/
def stringLike (l : Literal) (text : List Char) : Term :=
  .literal ⟨String.ofList text, l.kind⟩

/-- The texts of two strings; a language of the second has to be that of the first. -/
def compatible? (a b : Term) : Option (List Char × List Char) := do
  let a ← string? a
  let b ← string? b
  if b.language?.isSome && a.language? != b.language? then none
  else return (a.value.toList, b.value.toList)

/-- Whether a language tag lies in a range; case does not matter. -/
def languageMatches (tag range : List Char) : Bool :=
  if range = ['*'] then !tag.isEmpty
  else
    let tag := tag.map Text.asciiLower
    let range := range.map Text.asciiLower
    tag == range || (range ++ ['-']).isPrefixOf tag

/-- The language of a concatenation: that of all its parts, if they have the same. -/
def commonKind : List Literal → LiteralKind
  | [] => .plain
  | l :: rest => if rest.all fun m => m.kind == l.kind then l.kind else .plain

/-- The concatenation of strings. -/
def concat? (args : List Term) : Option Term := do
  let parts ← args.mapM string?
  return .literal ⟨String.join (parts.map Literal.value), commonKind parts⟩

/-- Whether characters stand somewhere in a text. -/
def isPartOf (part : List Char) : List Char → Bool
  | [] => part.isEmpty
  | c :: rest => part.isPrefixOf (c :: rest) || isPartOf part rest

/-- The result of a test, if it has one. -/
def test? (b : Option Bool) : Option Term := b.map Truth.toTerm

/-- The text of an IRI or a literal. -/
def text? : Term → Option Term
  | .iri node => some (.literal (Literal.plain node.text))
  | .literal l => some (.literal (Literal.plain l.value))
  | .blank _ => none

/-- The language of a literal, or the empty text. -/
def language? : Term → Option Term
  | .literal l => some (.literal (Literal.plain (l.language?.getD "")))
  | _ => none

/-- The datatype of a literal. -/
def datatype? : Term → Option Term
  | .literal l => some (.iri l.datatype)
  | _ => none

/-- Whether a pattern is found in a string. -/
def regex? (text pattern : Term) (flags : List Char) : Option Bool := do
  let text ← string? text
  let pattern ← simple? pattern
  Regex.isFound? text.value.toList pattern flags

/-- The value of a function at the values of its arguments. -/
def value? (f : Function) (args : List Term) : Option Term :=
  match f, args with
  | .str, [t] => text? t
  | .lang, [t] => language? t
  | .langMatches, [tag, range] => do
    return Truth.toTerm (languageMatches (← simple? tag) (← simple? range))
  | .datatype, [t] => datatype? t
  | .sameTerm, [a, b] => some (Truth.toTerm (a == b))
  | .isIri, [t] => some (Truth.toTerm t.isIri)
  | .isBlank, [t] => some (Truth.toTerm t.isBlank)
  | .isLiteral, [t] => some (Truth.toTerm t.isLiteral)
  | .isNumeric, [t] => some (Truth.toTerm (Numeric.ofTerm? t).isSome)
  | .regex, [text, pattern] => test? (regex? text pattern [])
  | .regex, [text, pattern, flags] => do test? (regex? text pattern (← simple? flags))
  | .contains, [a, b] => do
    let (text, part) ← compatible? a b
    return Truth.toTerm (isPartOf part text)
  | .strStarts, [a, b] => do
    let (text, part) ← compatible? a b
    return Truth.toTerm (part.isPrefixOf text)
  | .strEnds, [a, b] => do
    let (text, part) ← compatible? a b
    return Truth.toTerm (part.isSuffixOf text)
  | .strLen, [t] => do return .literal (Literal.ofInt (← string? t).value.length)
  | .upperCase, [t] => do
    let l ← string? t
    return stringLike l (Unicode.upper l.value.toList)
  | .lowerCase, [t] => do
    let l ← string? t
    return stringLike l (Unicode.lower l.value.toList)
  | .concat, args => concat? args
  | .abs, [t] => do return (← (← Numeric.ofTerm? t).abs?).toTerm
  | .cast target, [t] => Cast.term? target t
  | _, _ => none

end Builtin

end RdfStore
