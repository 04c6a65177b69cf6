import RdfStore.Peg.Grammar

/-!
# Tokens of Turtle and SPARQL

The two languages write IRIs, prefixed names, blank nodes, language tags, numbers and
strings in the same way. `Terminal.production` gives the rules of these tokens for any
grammar that contains them, and `blankLength` the blanks and comments of both.
-/

set_option autoImplicit false

namespace RdfStore.Syntax

open RdfStore.Peg RdfStore.Text

/-- The tokens that the two languages share, and their inner parts. -/
inductive Terminal where
  | iriRef
  | iriContent
  | prefixedSpace
  | prefixedName
  | localName
  | blankNodeLabel
  | label
  | anonymous
  | languageTag
  | integer
  | decimal
  | double
  | quoted
  | singleQuoted
  | longQuoted
  | longSingleQuoted
  | quotedContent
  | singleQuotedContent
  | longQuotedContent
  | longSingleQuotedContent
deriving DecidableEq

/-- White space between tokens. -/
def isBlank (c : Char) : Bool := c == ' ' || c == '\t' || c == '\r' || c == '\n'

/-- The characters that end a comment. -/
def isLineEnd (c : Char) : Bool := c == '\r' || c == '\n'

/-- How many blanks and characters of comments a text starts with; the flag tells whether
its first character belongs to a comment. -/
def blankLengthFrom : Bool → List Char → Nat
  | _, [] => 0
  | true, c :: rest =>
    if isLineEnd c then blankLengthFrom false rest + 1 else blankLengthFrom true rest + 1
  | false, c :: rest =>
    if isBlank c then blankLengthFrom false rest + 1
    else if c = '#' then blankLengthFrom true rest + 1
    else 0

/-- How many blanks and characters of comments a text starts with. -/
def blankLength (cs : List Char) : Nat := blankLengthFrom false cs

/-- Characters that stand in an IRI unescaped. -/
def isIriChar (c : Char) : Bool :=
  !(c.toNat ≤ 0x20 || c == '<' || c == '>' || c == '"' || c == '\x7b' || c == '\x7d'
    || c == '|' || c == '^' || c == '\x60' || c == '\\')

/-- The letters of one-letter escapes. -/
def isEscapeLetter (c : Char) : Bool :=
  c == 't' || c == 'b' || c == 'n' || c == 'r' || c == 'f' || c == '"' || c == '\x27' || c == '\\'

/-- Characters that a backslash can protect in a local name. -/
def isProtected (c : Char) : Bool :=
  c == '_' || c == '~' || c == '.' || c == '-' || c == '!' || c == '$' || c == '&' || c == '\x27'
    || c == '(' || c == ')' || c == '*' || c == '+' || c == ',' || c == ';' || c == '='
    || c == '/' || c == '?' || c == '#' || c == '@' || c == '%'

namespace Terminal

variable {R : Type}

/-! ## Parts of tokens -/

def hex : Expr R := .char isHexDigit

/-- A numeric escape. -/
def numericEscape : Expr R :=
  .choice (.seqs [.lit "\\u", hex, hex, hex, hex])
    (.seqs [.lit "\\U", hex, hex, hex, hex, hex, hex, hex, hex])

/-- A one-letter escape. -/
def letterEscape : Expr R := .seq (.one '\\') (.char isEscapeLetter)

/-- A percent encoding or a protected character. -/
def localEscape : Expr R :=
  .choice (.seqs [.one '%', hex, hex]) (.seq (.one '\\') (.char isProtected))

/-- A dot that is not the last character of a name. -/
def innerDot (next : Expr R) : Expr R := .seq (.one '.') (.ahead (.seq (.star (.one '.')) next))

/-- A name before a colon. -/
def prefixName : Expr R :=
  .seq (.char isNameBase) (.star (.choice (.char isNameChar) (innerDot (.char isNameChar))))

/-- A character inside a local name, dots apart. -/
def localChar : Expr R := .choices [.char isNameChar, .one ':', localEscape]

def sign : Expr R := .opt (.char fun c => c == '+' || c == '-')

def digits : Expr R := .plus (.char isAsciiDigit)

def exponent : Expr R := .seqs [.keyword "e", sign, digits]

/-- The content of a string on one line. -/
def lineContent (quote : Char) : Expr R :=
  .star (.choices [letterEscape, numericEscape,
    .char fun c => !(c == quote || c == '\\' || c == '\r' || c == '\n')])

/-- The content of a string over several lines; a run of quotes ends it only at its last three. -/
def longContent (quote : Char) : Expr R :=
  let three := Expr.text [quote, quote, quote]
  .star (.seq (.notAhead (.seq three (.notAhead (.one quote))))
    (.choices [letterEscape, numericEscape, .char fun c => c != '\\']))

/-- A string between the given quotes. -/
def string (quotes : List Char) (content : R) : Expr R :=
  .seqs [.text quotes, .rule content, .text quotes]

/-! ## Rules -/

/-- The rule of each token; `embed` names the tokens inside a grammar. -/
def production (embed : Terminal → R) : Terminal → Production R
  | .iriRef => ⟨.compound, .seqs [.one '<', .rule (embed .iriContent), .one '>']⟩
  | .iriContent => ⟨.token, .star (.choice numericEscape (.char isIriChar))⟩
  | .prefixedSpace => ⟨.token, .seq (.opt prefixName) (.one ':')⟩
  | .prefixedName => ⟨.compound, .seq (.rule (embed .prefixedSpace)) (.rule (embed .localName))⟩
  | .localName =>
    ⟨.token, .seq
      (.choices [.char isNameStart, .one ':', .char isAsciiDigit, localEscape])
      (.star (.choice localChar (innerDot localChar)))⟩
  | .blankNodeLabel => ⟨.compound, .seq (.lit "_:") (.rule (embed .label))⟩
  | .label =>
    ⟨.token, .seq (.char isLabelStart)
      (.star (.choice (.char isNameChar) (innerDot (.char isNameChar))))⟩
  | .anonymous => ⟨.token, .seqs [.one '[', .star (.char isBlank), .one ']']⟩
  | .languageTag =>
    ⟨.token, .seqs [.one '@', .plus (.char isAsciiLetter),
      .star (.seq (.one '-') (.plus (.char isAsciiAlphanumeric)))]⟩
  | .integer => ⟨.token, .seq sign digits⟩
  | .decimal => ⟨.token, .seqs [sign, .star (.char isAsciiDigit), .one '.', digits]⟩
  | .double =>
    ⟨.token, .seq sign (.choices
      [.seqs [digits, .one '.', .star (.char isAsciiDigit), exponent],
       .seqs [.one '.', digits, exponent],
       .seq digits exponent])⟩
  | .quoted => ⟨.compound, string ['"'] (embed .quotedContent)⟩
  | .singleQuoted => ⟨.compound, string ['\x27'] (embed .singleQuotedContent)⟩
  | .longQuoted => ⟨.compound, string ['"', '"', '"'] (embed .longQuotedContent)⟩
  | .longSingleQuoted =>
    ⟨.compound, string ['\x27', '\x27', '\x27'] (embed .longSingleQuotedContent)⟩
  | .quotedContent => ⟨.token, lineContent '"'⟩
  | .singleQuotedContent => ⟨.token, lineContent '\x27'⟩
  | .longQuotedContent => ⟨.token, longContent '"'⟩
  | .longSingleQuotedContent => ⟨.token, longContent '\x27'⟩

/-! ## Choices of tokens -/

/-- An IRI: in angle brackets or as a prefixed name. -/
def iri (embed : Terminal → R) : Expr R :=
  .choices [.rule (embed .iriRef), .rule (embed .prefixedName), .rule (embed .prefixedSpace)]

/-- A blank node with or without a label. -/
def blankNode (embed : Terminal → R) : Expr R :=
  .choice (.rule (embed .blankNodeLabel)) (.rule (embed .anonymous))

/-- A number. -/
def numeric (embed : Terminal → R) : Expr R :=
  .choices [.rule (embed .double), .rule (embed .decimal), .rule (embed .integer)]

/-- A string in any of the four forms. -/
def anyString (embed : Terminal → R) : Expr R :=
  .choices [.rule (embed .longQuoted), .rule (embed .longSingleQuoted), .rule (embed .quoted),
    .rule (embed .singleQuoted)]

/-- A string with an optional language tag or datatype. -/
def literal (embed : Terminal → R) : Expr R :=
  .seq (anyString embed)
    (.opt (.choice (.rule (embed .languageTag)) (.seq (.lit "^^") (iri embed))))

end Terminal

end RdfStore.Syntax
