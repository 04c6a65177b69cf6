import RdfStore.Text.CharClass

/-!
# Characters of a YAML text

A text is read as characters at their places. The line breaks that one finds in files are
all read as newlines; the two separators of Unicode end a line too, but stay what they are.
This module tells the classes of characters apart and holds what all kinds of scalars need:
the rest of a line, and gaps between words, in which a single line break stands for a blank
and `n` of them for `n - 1` line breaks. The characters that may stand in a text and the breaks are
those of the reader of `libyaml`.
-/

set_option autoImplicit false

namespace RdfStore.Yaml

/-! ## Classes of characters -/

/-- Characters that end a line. -/
def isBreak (c : Char) : Bool :=
  c == '\n' || c == '\r' || c.toNat == 0x85 || c.toNat == 0x2028 || c.toNat == 0x2029

/-- Blanks inside a line. -/
def isBlank (c : Char) : Bool := c == ' ' || c == '\t'

/-- Characters that end a word. -/
def isSpacing (c : Char) : Bool := isBlank c || isBreak c

/-- Characters that a text may hold. -/
def isAllowed (c : Char) : Bool :=
  let n := c.toNat
  isBreak c || n == 0x9 || (0x20 ≤ n && n ≤ 0x7E) || (0xA0 ≤ n && n ≤ 0xFFFD) || 0x10000 ≤ n

/-- Characters of the names of anchors, directives and handles. -/
def isNameChar (c : Char) : Bool :=
  Text.isAsciiAlphanumeric c || c == '-' || c == '_'

/-- The signs of collections in brackets. -/
def isBracketSign (c : Char) : Bool :=
  c == ',' || c == '[' || c == ']' || c == '\x7b' || c == '\x7d'

/-- Signs that mean something at the start of a word. -/
def isIndicator (c : Char) : Bool :=
  isBracketSign c || c == '#' || c == '&' || c == '*' || c == '!' || c == '|' || c == '>'
    || c == '\x27' || c == '"' || c == '%' || c == '@' || c == '\x60'

/-! ## Places -/

/-- A place in a text. -/
structure Place where
  /-- How many octets of the encoded text are before it. -/
  octets : Nat := 0
  line : Nat := 0
  column : Nat := 0

/-- The place after a character that takes the given number of octets. -/
def Place.next (p : Place) (size : Nat) : Place := ⟨p.octets + size, p.line, p.column + 1⟩

/-- The place after a line break that takes the given number of octets. -/
def Place.nextLine (p : Place) (size : Nat) : Place := ⟨p.octets + size, p.line + 1, 0⟩

/-- A character at its place. -/
structure Located where
  char : Char
  place : Place

/-- The column of a character. -/
def Located.column (a : Located) : Nat := a.place.column

/-- The characters of a text that are still to be read. -/
abbrev Source := List Located

/-- The character that a line break is read as. -/
def readBreak (c : Char) : Char := if c.toNat < 0x100 then '\n' else c

/-- The characters of a text from a place on. -/
def located (p : Place) : List Char → Source
  | [] => []
  | '\r' :: '\n' :: rest => ⟨'\n', p⟩ :: located (p.nextLine 2) rest
  | c :: rest =>
    if isBreak c then ⟨readBreak c, p⟩ :: located (p.nextLine c.utf8Size) rest
    else ⟨c, p⟩ :: located (p.next c.utf8Size) rest

/-- The source of a text, of which a mark of the byte order at the start is no part. -/
def Source.ofText (text : String) : Source :=
  match text.toList with
  | '\uFEFF' :: rest => located {} rest
  | cs => located {} cs

/-! ## Looking ahead -/

/-- Whether the source goes on with a character. -/
def startsWith (c : Char) : Source → Bool
  | a :: _ => a.char == c
  | [] => false

/-- Whether a word is over: at a blank, at a line break and at the end. -/
def endsWord : Source → Bool
  | [] => true
  | a :: _ => isSpacing a.char

/-- Whether a line starts with three times the same character and nothing after it. -/
def isMarker (mark : Char) : Source → Bool
  | a :: b :: c :: rest =>
    a.column == 0 && a.char == mark && b.char == mark && c.char == mark && endsWord rest
  | _ => false

/-- Whether a document ends or a new one starts here. -/
def atMarker (s : Source) : Bool := isMarker '-' s || isMarker '.' s

/-! ## Parts of a line -/

/-- The characters of a class, and what follows them. -/
def run (p : Char → Bool) : Source → List Char × Source
  | [] => ([], [])
  | a :: rest =>
    if p a.char then
      let (text, after) := run p rest
      (a.char :: text, after)
    else ([], a :: rest)

/-- The rest of a line, and what follows it from its line break on. -/
def line (s : Source) : List Char × Source := run (fun c => !isBreak c) s

/-- What follows the blanks of a line. -/
def afterBlanks (s : Source) : Source := (run isBlank s).2

/-- What follows a line of which only blanks and a comment are left. -/
def afterLine? (s : Source) : Option Source :=
  match afterBlanks s with
  | [] => some []
  | a :: rest =>
    if isBreak a.char then some rest
    else if a.char = '#' then some (line rest).2.tail
    else none

/-! ## Gaps -/

/-- Blanks and line breaks between words. -/
structure Gap where
  /-- The blanks before the first line break. -/
  blanks : List Char := []
  breaks : List Char := []

/-- Whether a gap reaches into another line. -/
def Gap.crosses (g : Gap) : Bool := !g.breaks.isEmpty

/-- What line breaks stand for: the first newline for nothing, or for a blank if it is the
only break; separators are kept. -/
def foldBreaks : List Char → List Char
  | ['\n'] => [' ']
  | '\n' :: rest => rest
  | breaks => breaks

/-- The text that a gap stands for. -/
def Gap.text (g : Gap) : List Char := if g.crosses then foldBreaks g.breaks else g.blanks

/-- The gap at the start of a source, and what follows it. -/
def gap : Source → Gap × Source
  | [] => ({}, [])
  | a :: rest =>
    if isBlank a.char then
      let (g, after) := gap rest
      ({ g with blanks := a.char :: g.blanks }, after)
    else if isBreak a.char then
      let (g, after) := gap rest
      (⟨[], a.char :: g.breaks⟩, after)
    else ({}, a :: rest)

end RdfStore.Yaml
