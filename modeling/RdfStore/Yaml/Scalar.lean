import RdfStore.Text.Escape
import RdfStore.Yaml.Source

/-!
# YAML scalars

The text of a scalar: plain, in quotes, or as a block of lines. A plain scalar and one in
quotes may go on in further lines. Each reader starts at the first character of a scalar and
gives its text with what follows it; its fuel is greater than the length of the source. Folding,
chomping, indentation and escapes are those of the scanner of `libyaml`.
-/

set_option autoImplicit false

namespace RdfStore.Yaml

/-! ## Plain scalars -/

/-- Whether a plain scalar starts here. -/
def startsPlain (inBrackets : Bool) : Source → Bool
  | [] => false
  | a :: rest =>
    if a.char = '-' then !rest.head?.any fun b => isBlank b.char
    else if a.char = '?' || a.char = ':' then !inBrackets && !endsWord rest
    else !isIndicator a.char && !isSpacing a.char

/-- Whether a colon touches a sign of brackets or a question mark. -/
def touchesSign (rest : Source) : Bool :=
  rest.head?.any fun b => isBracketSign b.char || b.char == '?'

/-- A word of a plain scalar, which ends before a colon at the end of a word, and inside
brackets before their signs; a colon that touches such a sign is refused there. -/
def plainWord? (inBrackets : Bool) : Source → Option (List Char × Source)
  | [] => some ([], [])
  | a :: rest =>
    if isSpacing a.char then some ([], a :: rest)
    else if inBrackets && a.char = ':' && touchesSign rest then none
    else if (a.char = ':' && endsWord rest) || (inBrackets && isBracketSign a.char) then
      some ([], a :: rest)
    else (plainWord? inBrackets rest).map fun r => (a.char :: r.1, r.2)

/-- Whether a tab stands in the indentation of a line, before the least column. -/
def hasTabInIndentation (least : Nat) (crossed : Bool) : Source → Bool
  | [] => false
  | a :: rest =>
    if isBreak a.char then hasTabInIndentation least true rest
    else if isBlank a.char then
      (crossed && a.char == '\t' && a.column < least) || hasTabInIndentation least crossed rest
    else false

/-- A plain scalar, or the rest of one after a gap: its words, each with the text of the gap
before it, and whether a line break follows the last one. Outside brackets its lines start at
the least column or after it. -/
def plain? (inBrackets : Bool) (least : Nat) :
    Nat → Gap → Source → Option (List Char × Bool × Source)
  | 0, _, _ => none
  | fuel + 1, before, s =>
    if atMarker s || startsWith '#' s then some ([], before.crosses, s)
    else do
      let (word, rest) ← plainWord? inBrackets s
      if word.isEmpty then return ([], before.crosses, rest)
      let text := before.text ++ word
      if !rest.head?.any fun a => isSpacing a.char then return (text, false, rest)
      if hasTabInIndentation least false rest then none
      let (between, after) := gap rest
      if !inBrackets && after.head?.any fun a => a.column < least then
        return (text, between.crosses, after)
      let (more, crosses, after) ← plain? inBrackets least fuel between after
      return (text ++ more, crosses, after)

/-! ## Scalars in quotes -/

/-- The character of an escape that takes no digits. -/
def escaped? (c : Char) : Option Char :=
  if c = '0' then some '\x00'
  else if c = 'a' then some '\x07'
  else if c = 'b' then some '\x08'
  else if c = 't' || c = '\t' then some '\t'
  else if c = 'n' then some '\n'
  else if c = 'v' then some '\x0B'
  else if c = 'f' then some '\x0C'
  else if c = 'r' then some '\r'
  else if c = 'e' then some '\x1B'
  else if c = ' ' || c = '"' || c = '/' || c = '\\' then some c
  else if c = 'N' then some (Char.ofNat 0x85)
  else if c = '_' then some (Char.ofNat 0xA0)
  else if c = 'L' then some (Char.ofNat 0x2028)
  else if c = 'P' then some (Char.ofNat 0x2029)
  else none

/-- How many digits an escape takes. -/
def escapeDigits? (c : Char) : Option Nat :=
  if c = 'x' then some 2 else if c = 'u' then some 4 else if c = 'U' then some 8 else none

/-- What an escape stands for, from the character after its backslash on. An escaped line
break stands for nothing; the breaks after it are kept. -/
def escape? : Source → Option (List Char × Source)
  | [] => none
  | a :: rest =>
    if isBreak a.char then
      let (between, after) := gap rest
      some (between.breaks, after)
    else
      match escapeDigits? a.char with
      | some count =>
        let digits := (rest.take count).map Located.char
        if digits.length = count then
          (Text.Escape.hexChar? digits).map fun c => ([c], rest.drop count)
        else none
      | none => (escaped? a.char).map fun c => ([c], rest)

/-- What follows an opening quote up to its closing one. -/
def quoted? (quote : Char) : Nat → Source → Option (List Char × Source)
  | 0, _ => none
  | _, [] => none
  | fuel + 1, a :: rest =>
    let more (text : List Char) (after : Source) : Option (List Char × Source) :=
      (quoted? quote fuel after).map fun r => (text ++ r.1, r.2)
    if atMarker (a :: rest) then none
    else if a.char = quote then
      if quote = '\x27' && startsWith quote rest then more [quote] rest.tail else some ([], rest)
    else if a.char = '\\' && quote = '"' then do
      let (text, after) ← escape? rest
      more text after
    else if isSpacing a.char then
      let (between, after) := gap (a :: rest)
      more between.text after
    else more [a.char] rest

/-! ## Scalars in blocks -/

/-- What becomes of the line breaks at the end of a block. -/
inductive Chomping where
  | strip | clip | keep
deriving DecidableEq

/-- The sign for what becomes of the line breaks. -/
def chomping? (c : Char) : Option Chomping :=
  if c = '-' then some .strip else if c = '+' then some .keep else none

/-- The digit for the indentation of a block. -/
def indentation? (c : Char) : Option Nat :=
  if Text.isAsciiDigit c && c != '0' then some (c.toNat - 0x30) else none

/-- Reads the sign at the start of a source, if there is one. -/
def sign? {α : Type} (read : Char → Option α) : Source → Option α × Source
  | [] => (none, [])
  | a :: rest =>
    match read a.char with
    | some x => (some x, rest)
    | none => (none, a :: rest)

/-- The signs after the start of a block, in either order. -/
def blockSigns (s : Source) : Chomping × Option Nat × Source :=
  match sign? chomping? s with
  | (some chomping, rest) =>
    let (indentation, rest) := sign? indentation? rest
    (chomping, indentation, rest)
  | (none, rest) =>
    match sign? indentation? rest with
    | (some n, rest) =>
      let (chomping, rest) := sign? chomping? rest
      (chomping.getD .clip, some n, rest)
    | (none, rest) => (.clip, none, rest)

/-- The empty lines before a line of a block: their breaks, the greatest column that their
blanks and those of the line reach, and the line without its indentation. Where no
indentation is known all blanks belong to it; a tab never does. -/
def emptyLines? (indentation : Option Nat) : Source → Option (List Char × Nat × Source)
  | [] => some ([], 0, [])
  | a :: rest =>
    let isInside := indentation.all fun n => a.column < n
    if isInside && a.char = ' ' then
      (emptyLines? indentation rest).map fun r => (r.1, max (a.column + 1) r.2.1, r.2.2)
    else if isInside && a.char = '\t' then none
    else if isBreak a.char then
      (emptyLines? indentation rest).map fun r => (a.char :: r.1, r.2)
    else some ([], 0, a :: rest)

/-- The line breaks at the end of a block: the one of its last line, and those after it. -/
structure BlockEnd where
  last : List Char
  empty : List Char

/-- What stands between a line of a block and the breaks of the empty lines after it. -/
def lineGlue (isFolded touchesBlank : Bool) (last empty : List Char) : List Char :=
  if isFolded && !touchesBlank && last = ['\n'] then (if empty.isEmpty then [' '] else [])
  else last

/-- The lines of a block that start at its indentation, after the given breaks. -/
def blockLines? (isFolded : Bool) (indentation : Nat) :
    Nat → BlockEnd → Bool → Source → Option (List Char × BlockEnd × Source)
  | 0, _, _, _ => none
  | _, before, _, [] => some ([], before, [])
  | fuel + 1, before, wasIndented, a :: rest =>
    if a.column = indentation then do
      let isIndented := isBlank a.char
      let glue := lineGlue isFolded (wasIndented || isIndented) before.last before.empty
      let (text, rest) := line (a :: rest)
      let (empty, _, after) ← emptyLines? (some indentation) rest.tail
      let next := BlockEnd.mk ((rest.take 1).map Located.char) empty
      let (more, finish, after) ← blockLines? isFolded indentation fuel next isIndented after
      return (glue ++ before.empty ++ text ++ more, finish, after)
    else some ([], before, a :: rest)

/-- The line breaks that are left at the end of a block. -/
def BlockEnd.chomp (e : BlockEnd) : Chomping → List Char
  | .strip => []
  | .clip => e.last
  | .keep => e.last ++ e.empty

/-- A scalar in a block, from the character after its sign on. The least column is the one
after the column of the collection around it, or zero. -/
def block? (isFolded : Bool) (least fuel : Nat) (s : Source) : Option (List Char × Source) := do
  let (chomping, sign, rest) := blockSigns s
  let start ← afterLine? rest
  let given := sign.map fun n => if least = 0 then n else least - 1 + n
  let (empty, deepest, first) ← emptyLines? given start
  let indentation := given.getD (max (max deepest least) 1)
  let (text, finish, after) ←
    blockLines? isFolded indentation fuel ⟨[], empty⟩ false first
  return (text ++ finish.chomp chomping, after)

end RdfStore.Yaml
