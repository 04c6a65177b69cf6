import RdfStore.Yaml.Value

/-!
# Writing YAML scalars

How a text is written so that it is read back as a text: plainly where nothing in it means
anything, in single quotes where it would be taken for something else, as a block of lines
where it has several, and in double quotes where it holds characters that need an escape. The choice
is that of the library `serde_yaml` and of the emitter of `libyaml`.
-/

set_option autoImplicit false

namespace RdfStore.Yaml

/-- Characters that are written as they are. -/
def isPrintable (c : Char) : Bool :=
  let n := c.toNat
  n == 0xA || (0x20 ≤ n && n ≤ 0x7E) || (0xA0 ≤ n && n ≤ 0xFFFD && n != 0xFEFF) || 0x10000 ≤ n

/-- Whether a text starts with a sign that means something there. -/
def hasIndicatorAtStart : List Char → Bool
  | [] => false
  | c :: rest =>
    let ends := match rest with
      | [] => true
      | d :: _ => isSpacing d
    isIndicator c || ((c == '-' || c == '?' || c == ':') && ends)

/-- Whether a text holds a colon at the end of a word or a hash at the start of one. -/
def hasIndicatorInside : List Char → Bool
  | [] => false
  | [c] => c == ':'
  | c :: d :: rest =>
    (c == ':' && isSpacing d) || (d == '#' && isSpacing c)
      || hasIndicatorInside (d :: rest)

/-- Whether a text starts like a marker of documents. -/
def startsLikeMarker (cs : List Char) : Bool :=
  ['-', '-', '-'].isPrefixOf cs || ['.', '.', '.'].isPrefixOf cs

/-- Whether a text can be written without quotes. -/
def isPlainText (cs : List Char) : Bool :=
  cs.all isPrintable && !cs.any isBreak && cs.head? != some ' ' && cs.getLast? != some ' '
    && !hasIndicatorAtStart cs && !hasIndicatorInside cs && !startsLikeMarker cs

/-- Whether a blank stands before a line break. -/
def hasBlankBeforeBreak : List Char → Bool
  | c :: d :: rest => (c == ' ' && isBreak d) || hasBlankBeforeBreak (d :: rest)
  | _ => false

/-- Whether a text can be written as a block of lines. -/
def isBlockText (cs : List Char) : Bool :=
  cs.all isPrintable && cs.getLast? != some ' ' && !hasBlankBeforeBreak cs

/-- Whether a blank stands after a line break. -/
def hasBlankAfterBreak : List Char → Bool
  | c :: d :: rest => (isBreak c && d == ' ') || hasBlankAfterBreak (d :: rest)
  | _ => false

/-- Whether a text can be written between single quotes. -/
def isQuotedText (cs : List Char) : Bool :=
  cs.all isPrintable && !cs.contains '\n' && !hasBlankBeforeBreak cs && !hasBlankAfterBreak cs

/-- Blanks at the start of a line. -/
def indent (indentation : Nat) (atStart : Bool) : List Char :=
  if atStart then List.replicate indentation ' ' else []

/-- The characters of a text and a quote after them, with quotes doubled, and blanks at the
start of every line. -/
def singleQuotedRest (indentation : Nat) (atStart : Bool) : List Char → List Char
  | [] => indent indentation atStart ++ ['\x27']
  | c :: rest =>
    if isBreak c then c :: singleQuotedRest indentation true rest
    else
      indent indentation atStart ++ (if c = '\x27' then [c, c] else [c])
        ++ singleQuotedRest indentation false rest

/-- A text between single quotes. -/
def singleQuoted (indentation : Nat) (cs : List Char) : List Char :=
  '\x27' :: singleQuotedRest indentation false cs

/-- A number in a given count of hexadecimal digits. -/
def hexDigits (n : Nat) : Nat → List Char
  | 0 => []
  | count + 1 => hexDigits (n / 16) count ++ [Text.Escape.hexDigit (n % 16)]

/-- The letters of the escapes that have one. -/
def escapeLetter? (c : Char) : Option Char :=
  ['0', 'a', 'b', 't', 'n', 'v', 'f', 'r', 'e', 'N', 'L', 'P'].find? fun letter =>
    escaped? letter == some c

/-- A character between double quotes. -/
def doubleQuotedChar (c : Char) : List Char :=
  if c = '"' || c = '\\' then ['\\', c]
  else if isPrintable c && !isBreak c then [c]
  else
    match escapeLetter? c with
    | some letter => ['\\', letter]
    | none =>
      let n := c.toNat
      if n ≤ 0xFF then '\\' :: 'x' :: hexDigits n 2
      else if n ≤ 0xFFFF then '\\' :: 'u' :: hexDigits n 4
      else '\\' :: 'U' :: hexDigits n 8

/-- A text between double quotes. -/
def doubleQuoted (cs : List Char) : List Char := '"' :: (cs.flatMap doubleQuotedChar ++ ['"'])

/-- A text that is no block. -/
def writeInLine (indentation : Nat) (text : String) : List Char :=
  let cs := text.toList
  if !isQuotedText cs then doubleQuoted cs
  else if isTyped text || !isPlainText cs then singleQuoted indentation cs
  else cs

/-- The signs of a block: its indentation if the text does not show it, and what becomes of
the line breaks at its end. -/
def writeBlockSigns (cs : List Char) : List Char :=
  (if cs.head?.any fun c => c = ' ' || isBreak c then ['2'] else [])
    ++ match cs.reverse with
      | [] => ['-']
      | [c] => if isBreak c then ['+'] else ['-']
      | c :: d :: _ => if !isBreak c then ['-'] else if isBreak d then ['+'] else []

/-- The characters of a block, with blanks at the start of every line that is not empty. A
text that ends with a separator leaves no newline. -/
def writeLines (indentation : Nat) (atStart : Bool) : List Char → List Char
  | [] => if atStart then [] else ['\n']
  | c :: rest =>
    if isBreak c then c :: writeLines indentation true rest
    else indent indentation atStart ++ c :: writeLines indentation false rest

/-- A text to the end of a line, or as a block with the given indentation. -/
def writeText (indentation : Nat) (text : String) : String :=
  let cs := text.toList
  if cs.contains '\n' && isBlockText cs then
    String.ofList ('|' :: (writeBlockSigns cs ++ '\n' :: writeLines indentation true cs))
  else String.ofList (writeInLine indentation text ++ ['\n'])

/-- Whether a text can stand before a colon in one line. -/
def isShortKey (text : String) : Bool :=
  text.utf8ByteSize ≤ 128 && !text.toList.any isBreak

/-- An entry of a mapping of texts. -/
def writeEntry (indentation : Nat) (key value : String) : String :=
  let blanks := String.ofList (List.replicate indentation ' ')
  let value := writeText (indentation + 2) value
  if isShortKey key then blanks ++ String.ofList (writeInLine indentation key) ++ ": " ++ value
  else blanks ++ "? " ++ writeText (indentation + 2) key ++ blanks ++ ": " ++ value

end RdfStore.Yaml
