import RdfStore.Number.Numeral
import RdfStore.Yaml.Document

/-!
# YAML values

What nodes stand for. A plain scalar, one without quotes, may stand for a truth value, a
number or nothing, which depends on its text alone; a tag can ask for one of these. A value
is a node with everything that its aliases stand for put in their places. What plain scalars stand
for, and how far aliases may be put in, is as the library `serde_yaml` documents it.
-/

set_option autoImplicit false

namespace RdfStore.Yaml

/-! ## What the texts of scalars stand for -/

/-- The words for nothing. -/
def isNullWord (text : String) : Bool := ["~", "null", "Null", "NULL"].contains text

/-- Whether a plain scalar of this text stands for nothing. -/
def isNull (text : String) : Bool := text.isEmpty || isNullWord text

/-- The words for truth values. -/
def bool? (text : String) : Option Bool :=
  if ["true", "True", "TRUE"].contains text then some true
  else if ["false", "False", "FALSE"].contains text then some false
  else none

/-- A number in the digits of a base. -/
def digitsIn? (base : Nat) (digits : List Char) : Option Nat :=
  if digits.isEmpty then none
  else digits.foldlM (fun n c =>
    (Text.Escape.hexValue? c).bind fun d => if d < base then some (n * base + d) else none) 0

/-- Digits that start with a superfluous zero; a text of them is no number. -/
def hasSuperfluousZero (digits : List Char) : Bool :=
  match digits with
  | '0' :: c :: rest => (c :: rest).all Text.isAsciiDigit
  | _ => false

/-- The digits of a number, in a base that a mark before them can give. -/
def digits? : List Char → Option Nat
  | '0' :: 'x' :: digits => digitsIn? 16 digits
  | '0' :: 'o' :: digits => digitsIn? 8 digits
  | '0' :: 'b' :: digits => digitsIn? 2 digits
  | digits => if hasSuperfluousZero digits then none else Integer.natural? digits

/-- A text without its sign. -/
def unsigned : List Char → List Char
  | '+' :: rest => rest
  | '-' :: rest => rest
  | cs => cs

/-- An integer as it is written: whether it has a minus sign, and what follows it. -/
structure WrittenInteger where
  isNegative : Bool
  magnitude : Nat
deriving DecidableEq

/-- The integer that a text writes. Integers have 128 bits, of which a minus sign takes one. -/
def integer? (text : String) : Option WrittenInteger :=
  let isNegative := text.toList.head? = some '-'
  let bits := if isNegative then 127 else 128
  (digits? (unsigned text.toList)).bind fun n =>
    if n < Nat.pow 2 bits || (isNegative && n = Nat.pow 2 bits) then some ⟨isNegative, n⟩ else none

/-- The words for numbers that have no digits. -/
def isSpecialNumber (text : String) : Bool :=
  [".inf", ".Inf", ".INF", "+.inf", "+.Inf", "+.INF", "-.inf", "-.Inf", "-.INF",
    ".nan", ".NaN", ".NAN"].contains text

/-- Whether a text writes a number that may have a fraction. -/
def isDecimal (text : String) : Bool :=
  isSpecialNumber text
    || ((Numeral.parts? text.toList).map Numeral.Parts.value).any Binary64.isFinite

/-- Whether a plain scalar of this text may be taken for something other than a text. -/
def isTyped (text : String) : Bool :=
  isNull text || (bool? text).isSome || (integer? text).isSome || isDecimal text
    || hasSuperfluousZero (unsigned text.toList)

/-! ## Values -/

/-- A value. -/
inductive Value where
  | nothing
  | truth (b : Bool)
  | integer (n : WrittenInteger)
  /-- A number that may have a fraction; which one it is does not matter to any reader. -/
  | decimal
  | text (s : String)
  | sequence (items : List Value)
  | mapping (entries : List (Value × Value))

/-- An integer as a value, which has 64 bits. -/
def Value.ofInteger? (n : WrittenInteger) : Option Value :=
  let greatest := if n.isNegative then 9223372036854775808 else 18446744073709551615
  if n.magnitude ≤ greatest then some (.integer n) else none

/-- The value of a plain scalar without a tag. -/
def Value.ofPlain? (text : String) : Option Value :=
  if isNull text then some .nothing
  else
    match bool? text, integer? text with
    | some b, _ => some (.truth b)
    | none, some n => Value.ofInteger? n
    | none, none =>
      if !hasSuperfluousZero (unsigned text.toList) && isDecimal text then some .decimal
      else some (.text text)

/-- The value of a scalar. A tag of a basic type is kept to; any other makes it a text. -/
def Value.ofScalar? (tag : Option Tag) (text : String) (style : Style) : Option Value :=
  match tag with
  | none => if style = .plain then Value.ofPlain? text else some (.text text)
  | some tag =>
    if tag = Tag.basic "bool" then (bool? text).map .truth
    else if tag = Tag.basic "int" then (integer? text).bind Value.ofInteger?
    else if tag = Tag.basic "float" then if isDecimal text then some .decimal else none
    else if tag = Tag.basic "null" then if isNullWord text then some .nothing else none
    else if tag.toList.head? = some '!' && style = .plain then Value.ofPlain? text
    else some (.text text)

/-! ## Aliases -/

/-- What aliases stand for, and how many more of them can be followed. -/
structure Anchors where
  nodes : List (Nat × Node)
  left : Nat

/-- The anchors of a document. For every mark of the document a hundred aliases can be
followed. -/
def Document.anchors (d : Document) : Anchors := ⟨d.root.anchored.reverse, 100 * d.root.size⟩

/-- A computation that follows aliases. -/
abbrev Following := StateT Anchors Option

/-- The node itself, or the one that it stands for. -/
def Node.follow : Node → Following Node
  | .alias number => do
    let anchors ← get
    match anchors.left, anchors.nodes.lookup number with
    | left + 1, some node =>
      set { anchors with left := left }
      return node
    | _, _ => failure
  | node => return node

/-- Whether the tag of a node belongs to the program that reads it. -/
def Node.hasLocalTag (node : Node) : Bool := (node.properties.tag.bind Tag.localName?).isSome

/-- The value of a node whose collections reach at most the given depth. -/
def Node.value : Nat → Node → Following Value
  | depth, node => do
    let node ← node.follow
    if node.hasLocalTag then failure
    match depth, node with
    | _, .scalar p text style => Value.ofScalar? p.tag text style
    | depth + 1, .sequence _ items => return .sequence (← items.mapM (Node.value depth))
    | depth + 1, .mapping _ entries =>
      return .mapping (← entries.mapM fun (key, value) => do
        return (← Node.value depth key, ← Node.value depth value))
    | _, _ => failure

end RdfStore.Yaml
