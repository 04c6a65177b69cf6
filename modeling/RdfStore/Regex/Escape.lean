import RdfStore.Regex.Cursor

/-!
# Escapes

What follows a backslash: a character by its sign or its number, a set by its letter or its
name, or a condition on a place. There are no references to groups. The escapes are those that the
library `regex` documents.
-/

set_option autoImplicit false

namespace RdfStore.Regex

open RdfStore.Text
open RdfStore.Unicode (Ranges)

/-- What an escape stands for. -/
inductive Primitive where
  /-- A character, and whether it is written as a byte. -/
  | literal (c : Char) (isByte : Bool)
  | set (members : Ranges)
  | look (condition : Look)

/-- The number that hexadecimal digits write. -/
def hexValue (digits : List Char) : Nat :=
  digits.foldl (fun n c => n * 16 + Unicode.digitValue (asciiLower c)) 0

/-- The character of a number, if there is one. -/
def charOf (n : Nat) (isByte : Bool) : Reader Primitive :=
  if n < 0x110000 && !(0xD800 ≤ n && n ≤ 0xDFFF) then return .literal (Char.ofNat n) isByte
  else failure

/-- A fixed number of hexadecimal digits. -/
def readHexDigits : Nat → Reader (List Char)
  | 0 => return []
  | count + 1 => do
    let c ← need
    if !isHexDigit c then failure
    bumpSpace
    return c :: (← readHexDigits count)

/-- The character written in hexadecimal digits after `\x`, `\u` or `\U`. -/
def readHex (letter : Char) : Reader Primitive := do
  if (← nextNeeded) = '\x7b' then
    bumpSpace
    let digits ← takeSpaced isHexDigit (← remaining)
    expect '\x7d'
    if digits.isEmpty then failure
    charOf (hexValue digits) false
  else
    let digits ← readHexDigits (if letter = 'x' then 2 else if letter = 'u' then 4 else 8)
    charOf (hexValue digits) (letter = 'x')

/-- Cuts a name at the first of its separators: `!=`, or else `:`, or else `=`. -/
def splitName (name : List Char) : Option (Bool × List Char × List Char) :=
  let cut := fun separator : List Char =>
    (List.range name.length).find? fun i => separator.isPrefixOf (name.drop i)
  match cut ['!', '='] with
  | some i => some (true, name.take i, name.drop (i + 2))
  | none =>
    match (cut [':']).or (cut ['=']) with
    | some i => some (false, name.take i, name.drop (i + 1))
    | none => none

/-- The set of a name between braces, and whether its complement is meant. -/
def classNamed (name : List Char) : Option (Bool × Ranges) :=
  match splitName name with
  | some (negated, property, value) =>
    (Unicode.classOf? property value).map fun members => (negated, members)
  | none => (Unicode.class? name).map fun members => (false, members)

/-- The class named after `\p`, or with a capital letter its complement. -/
def readProperty (flags : Flags) (letter : Char) : Reader Primitive := do
  if !flags.unicode then failure
  let c ← nextNeeded
  let name ←
    if c = '\x7b' then do
      bumpSpace
      let name ← takeSpaced (· != '\x7d') (← remaining)
      expect '\x7d'
      pure name
    else if c = '\\' then failure
    else do
      bumpSpace
      pure [c]
  let (negated, members) ← orFail (classNamed name)
  return .set (← orFail (flags.foldedIf? (negated != (letter = 'P')) members))

/-- Signs that stand for themselves after a backslash. -/
def isEscapable (c : Char) : Bool :=
  c.toNat < 0x80 && !isAsciiAlphanumeric c && c != '<' && c != '>'

/-- The conditions on words that are named between braces after `\b`. -/
def edgeNamed? (name : String) : Option WordEdge :=
  match name with
  | "start" => some .start
  | "end" => some .finish
  | "start-half" => some .startHalf
  | "end-half" => some .endHalf
  | _ => none

/-- The condition after `\b`. -/
def readBoundary : Reader WordEdge := do
  let isNameChar := fun c => isAsciiLetter c || c == '-'
  if (← peek) = some '\x7b' then
    let s ← get
    let first ← nextNeeded
    if !isNameChar first then
      set s
      return .boundary
    let name ← takeSpaced isNameChar (← remaining)
    expect '\x7d'
    orFail (edgeNamed? (String.ofList name))
  else return .boundary

/-- An escape. -/
def readEscape : Reader Primitive := do
  let flags := (← get).flags
  bump
  let c ← need
  if isAsciiDigit c then failure
  else if c = 'x' || c = 'u' || c = 'U' then readHex c
  else if c = 'p' || c = 'P' then readProperty flags c
  else if ['d', 's', 'w', 'D', 'S', 'W'].contains c then do
    bump
    return .set (← orFail (flags.shorthand? c))
  else do
    bump
    if isEscapable c then return .literal c false
    match c with
    | 'a' => return .literal '\x07' false
    | 'f' => return .literal '\x0c' false
    | 't' => return .literal '\t' false
    | 'n' => return .literal '\n' false
    | 'r' => return .literal '\r' false
    | 'v' => return .literal '\x0b' false
    | 'A' => return .look .textStart
    | 'z' => return .look .textEnd
    | 'b' => return .look (.word (← readBoundary) flags.unicode)
    | 'B' => return .look (.word .inside flags.unicode)
    | '<' => return .look (.word .start flags.unicode)
    | '>' => return .look (.word .finish flags.unicode)
    | _ => failure

end RdfStore.Regex
