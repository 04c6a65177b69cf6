/-!
# Classes of characters

The character classes of the Turtle and SPARQL grammars from which prefixes, local
names, blank node labels and variable names are built, and the Unicode property
White_Space, whose characters `trim` removes from both ends of a text.
-/

set_option autoImplicit false

namespace RdfStore.Text

/-! ## Names -/

/-- Letters `A` to `Z` of either case. -/
def isAsciiLetter (c : Char) : Bool :=
  let n := c.toNat
  (0x41 ≤ n && n ≤ 0x5A) || (0x61 ≤ n && n ≤ 0x7A)

/-- Digits `0` to `9`. -/
def isAsciiDigit (c : Char) : Bool := 0x30 ≤ c.toNat && c.toNat ≤ 0x39

/-- Letters and digits of ASCII. -/
def isAsciiAlphanumeric (c : Char) : Bool := isAsciiLetter c || isAsciiDigit c

/-- Hexadecimal digits of either case. -/
def isHexDigit (c : Char) : Bool :=
  let n := c.toNat
  isAsciiDigit c || (0x41 ≤ n && n ≤ 0x46) || (0x61 ≤ n && n ≤ 0x66)

/-- Characters that may start a name (`PN_CHARS_BASE`). -/
def isNameBase (c : Char) : Bool :=
  let n := c.toNat
  isAsciiLetter c || (0xC0 ≤ n && n ≤ 0xD6) || (0xD8 ≤ n && n ≤ 0xF6) || (0xF8 ≤ n && n ≤ 0x2FF)
    || (0x370 ≤ n && n ≤ 0x37D) || (0x37F ≤ n && n ≤ 0x1FFF) || (0x200C ≤ n && n ≤ 0x200D)
    || (0x2070 ≤ n && n ≤ 0x218F) || (0x2C00 ≤ n && n ≤ 0x2FEF) || (0x3001 ≤ n && n ≤ 0xD7FF)
    || (0xF900 ≤ n && n ≤ 0xFDCF) || (0xFDF0 ≤ n && n ≤ 0xFFFD) || (0x10000 ≤ n && n ≤ 0xEFFFF)

/-- Name starts with the underscore (`PN_CHARS_U`). -/
def isNameStart (c : Char) : Bool := c == '_' || isNameBase c

/-- Marks that may continue a name but not start it. -/
def isNameMark (c : Char) : Bool :=
  let n := c.toNat
  n == 0xB7 || (0x300 ≤ n && n ≤ 0x36F) || (0x203F ≤ n && n ≤ 0x2040)

/-- Characters inside a name (`PN_CHARS`). -/
def isNameChar (c : Char) : Bool :=
  isNameStart c || c == '-' || isAsciiDigit c || isNameMark c

/-- Characters that may start a blank node label. -/
def isLabelStart (c : Char) : Bool := isNameStart c || isAsciiDigit c

/-- Characters inside a variable name. -/
def isVariableChar (c : Char) : Bool := isNameStart c || isAsciiDigit c || isNameMark c

/-- Lower-cases the letters of ASCII. -/
def asciiLower (c : Char) : Char :=
  if 0x41 ≤ c.toNat && c.toNat ≤ 0x5A then Char.ofNat (c.toNat + 0x20) else c

/-- Upper-cases the letters of ASCII. -/
def asciiUpper (c : Char) : Char :=
  if 0x61 ≤ c.toNat && c.toNat ≤ 0x7A then Char.ofNat (c.toNat - 0x20) else c

/-- A string with its ASCII letters in lower case. -/
def asciiLowerString (s : String) : String := String.ofList (s.toList.map asciiLower)

/-- A string with its ASCII letters in upper case. -/
def asciiUpperString (s : String) : String := String.ofList (s.toList.map asciiUpper)

/-- Equality up to the case of ASCII letters. -/
def equalIgnoringCase (a b : List Char) : Bool := a.map asciiLower == b.map asciiLower

/-! ## White space -/

/-- The Unicode property White_Space. -/
def isSpace (c : Char) : Bool :=
  let n := c.toNat
  (0x9 ≤ n && n ≤ 0xD) || n == 0x20 || n == 0x85 || n == 0xA0 || n == 0x1680
    || (0x2000 ≤ n && n ≤ 0x200A) || n == 0x2028 || n == 0x2029 || n == 0x202F
    || n == 0x205F || n == 0x3000

/-- Removes white space from both ends. -/
def trim (cs : List Char) : List Char :=
  ((cs.dropWhile isSpace).reverse.dropWhile isSpace).reverse

/-- Removes white space from both ends of a string. -/
def trimString (s : String) : String := String.ofList (trim s.toList)

/-- Cuts a text at its first white space character, which belongs to neither part. -/
def splitAtSpace : List Char → List Char × Option (List Char)
  | [] => ([], none)
  | c :: rest =>
    if isSpace c then ([], some rest)
    else ((c :: (splitAtSpace rest).1), (splitAtSpace rest).2)

end RdfStore.Text
