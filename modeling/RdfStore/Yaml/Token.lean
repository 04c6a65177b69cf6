import RdfStore.Number.Integer
import RdfStore.Yaml.Scalar
import RdfStore.Yaml.Tag

/-!
# Tokens of a YAML text

`Token.ofText?` cuts a text into tokens. Collections by indentation become tokens too, for
their starts and for their ends. A key before a colon is known as one only at the colon; so
every place where a key may have started is kept in mind until the line ends or 1024 octets
have passed, and the token for the key is put in there. The tokens and this limit are those of the
scanner of `libyaml`.
-/

set_option autoImplicit false

namespace RdfStore.Yaml

/-- How a scalar is written. -/
inductive Style where
  | plain | quoted | literal | folded
deriving DecidableEq

/-- The parts of a text. -/
inductive Token where
  /-- The version that a text is written in. -/
  | version (major minor : Nat)
  /-- A handle with what it stands for. -/
  | handle (name start : String)
  | documentStart
  | documentEnd
  /-- The start of a collection by indentation. -/
  | blockSequence
  | blockMapping
  | blockEnd
  | openSequence
  | closeSequence
  | openMapping
  | closeMapping
  | comma
  | dash
  | key
  | value
  | alias (name : String)
  | anchor (name : String)
  | tag (written : WrittenTag)
  | scalar (text : String) (style : Style)
deriving DecidableEq

/-! ## Directives -/

/-- A number of at most nine digits. -/
def versionNumber? (s : Source) : Option (Nat × Source) :=
  let (digits, rest) := run Text.isAsciiDigit s
  if digits.isEmpty || 9 < digits.length then none
  else some (Integer.ofDigits digits, rest)

/-- The version in a directive. -/
def versionToken? (s : Source) : Option (Token × Source) := do
  let (major, rest) ← versionNumber? (afterBlanks s)
  if startsWith '.' rest then
    let (minor, rest) ← versionNumber? rest.tail
    return (.version major minor, rest)
  else none

/-- The handle in a directive, and what it stands for. -/
def handleToken? (fuel : Nat) (s : Source) : Option (Token × Source) := do
  let (name, isClosed, rest) ← handle? (afterBlanks s)
  let text ← if isClosed then some (closedHandle name) else if name.isEmpty then some "!" else none
  if rest.head?.any fun a => isBlank a.char then
    let (start, rest) ← tagPart? isFullTagChar fuel (afterBlanks rest)
    if endsWord rest then return (.handle text start, rest) else none
  else none

/-- A directive, from the character after its percent sign on. -/
def directive? (fuel : Nat) (s : Source) : Option (Token × Source) := do
  let (name, rest) := run isNameChar s
  if !endsWord rest then none
  let (token, rest) ←
    if name = "YAML".toList then versionToken? rest
    else if name = "TAG".toList then handleToken? fuel rest
    else none
  return (token, ← afterLine? rest)

/-! ## Anchors -/

/-- Characters that may follow the name of an anchor. -/
def isAfterName (s : Source) : Bool :=
  endsWord s || s.head?.any fun a => ['?', ':', ',', ']', '\x7d', '%', '@', '\x60'].contains a.char

/-- The name of an anchor. -/
def anchorName? (s : Source) : Option (String × Source) :=
  let (name, rest) := run isNameChar s
  if name.isEmpty || !isAfterName rest then none else some (String.ofList name, rest)

/-! ## Between tokens -/

/-- What follows blanks, comments and line breaks, and whether a line break was among them.
Tabs count as blanks where they cannot be taken for indentation. -/
def skip (inBrackets tabs inComment : Bool) : Source → Bool × Source
  | [] => (false, [])
  | a :: rest =>
    if isBreak a.char then (true, (skip inBrackets inBrackets false rest).2)
    else if inComment || a.char = ' ' || (a.char = '\t' && tabs) then
      skip inBrackets tabs inComment rest
    else if a.char = '#' then skip inBrackets tabs true rest
    else (false, a :: rest)

/-! ## Progress -/

/-- A place where a key may have started. -/
structure KeyStart where
  /-- How many tokens are before it. -/
  number : Nat
  place : Place
  /-- Whether nothing but a key may stand there. -/
  isRequired : Bool

/-- Whether a key from here cannot reach a place: keys end in their line, within 1024
octets. -/
def KeyStart.isOver (k : KeyStart) (p : Place) : Bool :=
  k.place.line < p.line || k.place.octets + 1024 < p.octets

/-- How far a text is cut into tokens. -/
structure Cut where
  /-- The tokens, the last one first. -/
  tokens : List Token := []
  /-- How many tokens there are. -/
  count : Nat := 0
  /-- The columns of the collections by indentation, the innermost first. -/
  columns : List Nat := []
  /-- Where a key may have started in the innermost brackets. -/
  key : Option KeyStart := none
  /-- Where one may have started around each pair of open brackets, the innermost first. -/
  outerKeys : List (Option KeyStart) := []
  /-- Whether a key may start at the next token. -/
  allowsKey : Bool := true

namespace Cut

/-- Whether some brackets are open. -/
def inBrackets (c : Cut) : Bool := !c.outerKeys.isEmpty

/-- Puts tokens in after the given number of tokens. -/
def insert (c : Cut) (number : Nat) (added : List Token) : Cut :=
  let later := c.count - number
  { c with
    tokens := c.tokens.take later ++ added.reverse ++ c.tokens.drop later
    count := c.count + added.length }

/-- Adds a token at the end. -/
def push (c : Cut) (token : Token) : Cut :=
  { c with tokens := token :: c.tokens, count := c.count + 1 }

/-- Forgets a place where a key may have started, unless one has to be there. -/
def unlessRequired (key : Option KeyStart) : Option (Option KeyStart) :=
  if key.any KeyStart.isRequired then none else some none

/-- Forgets where a key may have started in the innermost brackets. -/
def forgetKey? (c : Cut) : Option Cut := do return { c with key := ← unlessRequired c.key }

/-- Forgets the keys that cannot reach a place. -/
def forgetOver? (c : Cut) (p : Place) : Option Cut := do
  let keep (key : Option KeyStart) : Option (Option KeyStart) :=
    if key.any fun k => k.isOver p then unlessRequired key else some key
  return { c with key := ← keep c.key, outerKeys := ← c.outerKeys.mapM keep }

/-- Keeps in mind that a key may start at a place. In a mapping by indentation one has to
start at its column. -/
def markKey? (c : Cut) (p : Place) : Option Cut :=
  if c.allowsKey then do
    let c ← c.forgetKey?
    let isRequired := !c.inBrackets && c.columns.head? == some p.column
    return { c with key := some ⟨c.count, p, isRequired⟩ }
  else some c

/-- Ends the collections by indentation whose column is the given one or a greater one. -/
def closeFrom (c : Cut) (column : Nat) : Cut :=
  if c.inBrackets then c
  else
    let closed := c.columns.takeWhile fun n => column ≤ n
    { c with
      tokens := closed.map (fun _ => .blockEnd) ++ c.tokens
      count := c.count + closed.length
      columns := c.columns.dropWhile fun n => column ≤ n }

/-- Whether a collection by indentation starts at a column. -/
def startsBlock (c : Cut) (column : Nat) : Bool :=
  !c.inBrackets && c.columns.head?.all fun n => n < column

/-- Starts a collection by indentation, unless one of its column is open. -/
def openBlock (c : Cut) (column : Nat) (token : Token) : Cut :=
  if c.startsBlock column then { c.push token with columns := column :: c.columns } else c

/-- The least column of a scalar that is part of the innermost collection. -/
def leastColumn (c : Cut) : Nat := (c.columns.head?.map (· + 1)).getD 0

/-- The directive or the marker of a document, which ends all collections by indentation. -/
def boundary? (c : Cut) (token : Token) : Option Cut := do
  return { ← (c.closeFrom 0).forgetKey? with allowsKey := false }.push token

/-- An opening bracket. -/
def openBracket? (c : Cut) (p : Place) (token : Token) : Option Cut := do
  let c ← c.markKey? p
  return { c with key := none, outerKeys := c.key :: c.outerKeys, allowsKey := true }.push token

/-- A closing bracket. -/
def closeBracket? (c : Cut) (token : Token) : Option Cut := do
  let c ← c.forgetKey?
  let c := match c.outerKeys with
    | key :: outer => { c with key := key, outerKeys := outer }
    | [] => c
  return { c with allowsKey := false }.push token

/-- A comma. -/
def comma? (c : Cut) : Option Cut := do
  return { ← c.forgetKey? with allowsKey := true }.push .comma

/-- A sign that starts a part of a collection by indentation, if brackets do not enclose it. -/
def startPart? (c : Cut) (p : Place) (token : Token) : Option Cut :=
  if c.inBrackets then some c
  else if c.allowsKey then some (c.openBlock p.column token)
  else none

/-- A dash before an item. -/
def dash? (c : Cut) (p : Place) : Option Cut := do
  let c ← (← c.startPart? p .blockSequence).forgetKey?
  return { c with allowsKey := true }.push .dash

/-- A question mark before a key. -/
def question? (c : Cut) (p : Place) : Option Cut := do
  let c ← (← c.startPart? p .blockMapping).forgetKey?
  return { c with allowsKey := !c.inBrackets }.push .key

/-- A colon: what started at the place kept in mind is a key. -/
def colon? (c : Cut) (p : Place) : Option Cut :=
  match c.key with
  | some k =>
    let column := k.place.column
    let c :=
      if c.startsBlock column then
        { c.insert k.number [.blockMapping, .key] with columns := column :: c.columns }
      else c.insert k.number [.key]
    some ({ c with key := none, allowsKey := false }.push .value)
  | none => do
    let c ← c.startPart? p .blockMapping
    return { c with allowsKey := !c.inBrackets }.push .value

/-- An anchor, a tag or a scalar in a line, where a key may start. -/
def part? (c : Cut) (p : Place) (token : Token) : Option Cut := do
  return { ← c.markKey? p with allowsKey := false }.push token

/-- A scalar in a block. -/
def block? (c : Cut) (token : Token) : Option Cut := do
  return { ← c.forgetKey? with allowsKey := true }.push token

end Cut

/-! ## Cutting -/

/-- The token of a bracket. -/
def bracket? (c : Char) : Option Token :=
  if c = '[' then some .openSequence
  else if c = ']' then some .closeSequence
  else if c = '\x7b' then some .openMapping
  else if c = '\x7d' then some .closeMapping
  else none

/-- Whether a question mark or a colon is a sign here: inside brackets, or at the end of a
word. -/
def isSign (c : Cut) (rest : Source) : Bool := c.inBrackets || endsWord rest

/-- Reads an anchor, a tag or a scalar. -/
def contentToken? (fuel : Nat) (c : Cut) (a : Located) (rest : Source) : Option (Cut × Source) :=
  let whole := a :: rest
  if a.char = '*' then do
    let (name, after) ← anchorName? rest
    return (← c.part? a.place (.alias name), after)
  else if a.char = '&' then do
    let (name, after) ← anchorName? rest
    return (← c.part? a.place (.anchor name), after)
  else if a.char = '!' then do
    let (written, after) ← writtenTag? fuel whole
    if endsWord after || (c.inBrackets && startsWith ',' after) then
      return (← c.part? a.place (.tag written), after)
    else none
  else if !c.inBrackets && (a.char = '|' || a.char = '>') then do
    let isFolded := a.char = '>'
    let (text, after) ← block? isFolded c.leastColumn fuel rest
    let style := if isFolded then Style.folded else Style.literal
    return (← c.block? (.scalar (String.ofList text) style), after)
  else if a.char = '\x27' || a.char = '"' then do
    let (text, after) ← quoted? a.char fuel rest
    return (← c.part? a.place (.scalar (String.ofList text) .quoted), after)
  else if startsPlain c.inBrackets whole then do
    let (text, crosses, after) ← plain? c.inBrackets c.leastColumn fuel {} whole
    let c ← c.part? a.place (.scalar (String.ofList text) .plain)
    return ({ c with allowsKey := crosses }, after)
  else none

/-- Reads the token that starts with a character. -/
def token? (fuel : Nat) (c : Cut) (a : Located) (rest : Source) : Option (Cut × Source) :=
  let whole := a :: rest
  if a.column = 0 && a.char = '%' then do
    let (token, after) ← directive? fuel rest
    return (← c.boundary? token, after)
  else if isMarker '-' whole then do return (← c.boundary? .documentStart, whole.drop 3)
  else if isMarker '.' whole then do return (← c.boundary? .documentEnd, whole.drop 3)
  else
    match bracket? a.char with
    | some token => do
      let isOpening := token = .openSequence || token = .openMapping
      let c ← if isOpening then c.openBracket? a.place token else c.closeBracket? token
      return (c, rest)
    | none =>
      if a.char = ',' then c.comma?.map fun c => (c, rest)
      else if a.char = '-' && endsWord rest then (c.dash? a.place).map fun c => (c, rest)
      else if a.char = '?' && isSign c rest then (c.question? a.place).map fun c => (c, rest)
      else if a.char = ':' && isSign c rest then (c.colon? a.place).map fun c => (c, rest)
      else contentToken? fuel c a rest

/-- Reads all tokens. -/
def tokens? : Nat → Cut → Source → Option (List Token)
  | 0, _, _ => none
  | fuel + 1, c, s =>
    let (crosses, after) := skip c.inBrackets (c.inBrackets || !c.allowsKey) false s
    let c := if crosses && !c.inBrackets then { c with allowsKey := true } else c
    match after with
    | [] => (c.closeFrom 0).forgetKey?.map fun c => c.tokens.reverse
    | a :: rest => do
      let c ← c.forgetOver? a.place
      let (c, after) ← token? (fuel + 1) (c.closeFrom (a.column + 1)) a rest
      tokens? fuel c after

/-- The tokens of a text. A mark of the byte order that is left at the start takes a column. -/
def Token.ofText? (text : String) : Option (List Token) :=
  if text.toList.all isAllowed then
    let s := Source.ofText text
    tokens? (s.length + 1) {} (if startsWith '\uFEFF' s then s.tail else s)
  else none

end RdfStore.Yaml
