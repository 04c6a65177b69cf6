import RdfStore.Unicode.Category
import RdfStore.Unicode.Property
import RdfStore.Unicode.Script

/-!
# Breaks in texts

The classes of characters by which texts are cut into letters as the reader sees them, into
words and into sentences. Each class follows from categories and properties but for a few
characters that are listed. Every table is read by the short names of its classes.
-/

set_option autoImplicit false

namespace RdfStore.Unicode.Segmentation

open Ranges

/-- The characters of some categories. -/
def category (names : List String) : Ranges :=
  names.foldl (fun a name => a.union (categoryTable.get name)) []

/-- The characters with a property. -/
def property (name : String) : Ranges := propertyTable.get name

/-- The characters of a script. -/
def script (name : String) : Ranges := scriptTable.get name

/-- The joiner without width. -/
def joiner : Ranges := single 0x200D

/-- Marks that join what is before them: those on the line of writing too. -/
def marks : Ranges := (property "grext").union (category ["mc"])

/-- Characters in one of the sets. -/
def anyOf (sets : List Ranges) : Ranges := sets.foldl union []

/-! ## Letters as the reader sees them -/

/-- The first character of each block of syllables that differ in their last consonant. -/
def openSyllables : Ranges := (List.range 399).map fun i => (0xAC00 + 28 * i, 0xAC00 + 28 * i)

/-- All syllables written as one character. -/
def syllables : Ranges := [(0xAC00, 0xD7A3)]

/-- Characters that extend the letter before them. -/
def letterExtend : Ranges :=
  (anyOf [property "grext", property "emod", single 0x200C]).difference joiner

/-- Marks on the line of writing that begin a letter of their own. -/
def standingMarks : Ranges :=
  [(0x102B, 0x102C), (0x1038, 0x1038), (0x1062, 0x1064), (0x1067, 0x106D), (0x1083, 0x1083),
   (0x1087, 0x108C), (0x108F, 0x108F), (0x109A, 0x109C), (0x1A61, 0x1A61), (0x1A63, 0x1A64),
   (0xAA7B, 0xAA7B), (0xAA7D, 0xAA7D), (0x11720, 0x11721)]

/-- Characters that control the text. -/
def letterControl : Ranges :=
  let unassigned := (anyOf (categoryTable.map (·.2))).complement
  (anyOf [category ["zl", "zp", "cc", "cf"], (property "di").intersection unassigned]).difference
    (anyOf [single 0x0D, single 0x0A, letterExtend, joiner, property "pcm"])

/-- The classes of characters in letters. -/
def letterTable : Table :=
  [("cn", letterControl),
   ("cr", single 0x0D),
   ("ex", letterExtend),
   ("l", [(0x1100, 0x115F), (0xA960, 0xA97C)]),
   ("lf", single 0x0A),
   ("lv", openSyllables),
   ("lvt", syllables.difference openSyllables),
   ("pp", (property "pcm").union
      [(0x0D4E, 0x0D4E), (0x111C2, 0x111C3), (0x113D1, 0x113D1), (0x1193F, 0x1193F),
       (0x11941, 0x11941), (0x11A3A, 0x11A3A), (0x11A84, 0x11A89), (0x11D46, 0x11D46),
       (0x11F02, 0x11F02)]),
   ("ri", property "ri"),
   ("sm", ((category ["mc"]).union [(0x0E33, 0x0E33), (0x0EB3, 0x0EB3)]).difference
      (letterExtend.union standingMarks)),
   ("t", [(0x11A8, 0x11FF), (0xD7CB, 0xD7FB)]),
   ("v", [(0x1160, 0x11A7), (0xD7B0, 0xD7C6), (0x16D63, 0x16D63), (0x16D67, 0x16D6A)]),
   ("zwj", joiner)]

/-- The short names of the classes in letters. -/
def letterAliases : List (String × String) :=
  [("control", "cn"), ("extend", "ex"), ("prepend", "pp"), ("regionalindicator", "ri"),
   ("spacingmark", "sm")]

/-! ## Words -/

/-- Characters that extend the word before them. -/
def wordExtend : Ranges := (marks.union (property "emod")).difference joiner

/-- Scripts of kana letters, with their length marks. -/
def katakana : Ranges :=
  (script "kana").union
    [(0x3031, 0x3035), (0x309B, 0x309C), (0x30A0, 0x30A0), (0x30FC, 0x30FC), (0xFF70, 0xFF70)]

/-- Letters of the Hebrew script. -/
def hebrewLetter : Ranges := (script "hebr").intersection (category ["lo"])

/-- Blocks of scripts that are written without spaces between words. -/
def withoutSpaces : Ranges :=
  [(0x0E00, 0x0EFF), (0x1000, 0x109F), (0x1780, 0x17FF), (0x1950, 0x19DF), (0x1A20, 0x1AAF),
   (0xA9E0, 0xA9FF), (0xAA60, 0xAADF), (0x11700, 0x1174F)]

/-- Letters of words. -/
def wordLetter : Ranges :=
  ((property "alpha").difference
    (anyOf [property "ideo", katakana, script "hira", wordExtend, hebrewLetter,
      withoutSpaces])).union
    [(0x02C2, 0x02C5), (0x02D2, 0x02D7), (0x02DE, 0x02DF), (0x02E5, 0x02EB), (0x02ED, 0x02ED),
     (0x02EF, 0x02FF), (0x055A, 0x055C), (0x055E, 0x055E), (0x058A, 0x058A), (0x05F3, 0x05F3),
     (0xA708, 0xA716), (0xA720, 0xA721), (0xA789, 0xA78A), (0xAB5B, 0xAB5B)]

/-- The classes of characters in words. -/
def wordTable : Table :=
  [("cr", single 0x0D),
   ("dq", single 0x22),
   ("ex", (category ["pc"]).union (single 0x202F)),
   ("extend", wordExtend),
   ("fo", (category ["cf"]).difference (anyOf [wordExtend, [(0x200B, 0x200D)]])),
   ("hl", hebrewLetter),
   ("ka", katakana),
   ("le", wordLetter),
   ("lf", single 0x0A),
   ("mb", [(0x2E, 0x2E), (0x2018, 0x2019), (0x2024, 0x2024), (0xFE52, 0xFE52), (0xFF07, 0xFF07),
      (0xFF0E, 0xFF0E)]),
   ("ml", [(0x3A, 0x3A), (0xB7, 0xB7), (0x387, 0x387), (0x55F, 0x55F), (0x5F4, 0x5F4),
      (0x2027, 0x2027), (0xFE13, 0xFE13), (0xFE55, 0xFE55), (0xFF1A, 0xFF1A)]),
   ("mn", [(0x2C, 0x2C), (0x3B, 0x3B), (0x37E, 0x37E), (0x589, 0x589), (0x60C, 0x60D),
      (0x66C, 0x66C), (0x7F8, 0x7F8), (0x2044, 0x2044), (0xFE10, 0xFE10), (0xFE14, 0xFE14),
      (0xFE50, 0xFE50), (0xFE54, 0xFE54), (0xFF0C, 0xFF0C), (0xFF1B, 0xFF1B)]),
   ("nl", [(0x0B, 0x0C), (0x85, 0x85), (0x2028, 0x2029)]),
   ("nu", (category ["nd"]).union (single 0x66B)),
   ("ri", property "ri"),
   ("sq", single 0x27),
   ("wsegspace", (category ["zs"]).difference
      (anyOf [single 0xA0, single 0x2007, single 0x202F])),
   ("zwj", joiner)]

/-- The short names of the classes in words. -/
def wordAliases : List (String × String) :=
  [("aletter", "le"), ("doublequote", "dq"), ("extendnumlet", "ex"), ("format", "fo"),
   ("hebrewletter", "hl"), ("katakana", "ka"), ("midletter", "ml"), ("midnum", "mn"),
   ("midnumlet", "mb"), ("newline", "nl"), ("numeric", "nu"), ("regionalindicator", "ri"),
   ("singlequote", "sq")]

/-! ## Sentences -/

/-- Characters that extend the character before them. -/
def sentenceExtend : Ranges := marks.union joiner

/-- Full stops. -/
def fullStop : Ranges := [(0x2E, 0x2E), (0x2024, 0x2024), (0xFE52, 0xFE52), (0xFF0E, 0xFF0E)]

/-- Small letters; the Georgian letters have no case in sentences. -/
def sentenceLower : Ranges :=
  (property "lower").difference (anyOf [sentenceExtend, [(0x10D0, 0x10FA), (0x10FD, 0x10FF)]])

/-- Capital letters. -/
def sentenceUpper : Ranges :=
  ((property "upper").union (category ["lt"])).difference [(0x1C90, 0x1CBA), (0x1CBD, 0x1CBF)]

/-- The classes of characters in sentences. -/
def sentenceTable : Table :=
  [("at", fullStop),
   ("cl", (category ["ps", "pe", "pi", "pf"]).union
      [(0x22, 0x22), (0x27, 0x27), (0x275B, 0x2760), (0x2E00, 0x2E01), (0x2E06, 0x2E08),
       (0x2E0B, 0x2E0B), (0x1F676, 0x1F678)]),
   ("cr", single 0x0D),
   ("ex", sentenceExtend),
   ("fo", (category ["cf"]).difference (anyOf [sentenceExtend, [(0x200C, 0x200D)]])),
   ("le", ((property "alpha").union (single 0x5F3)).difference
      (anyOf [sentenceLower, sentenceUpper, sentenceExtend])),
   ("lf", single 0x0A),
   ("lo", sentenceLower),
   ("nu", (category ["nd"]).union [(0x66B, 0x66C)]),
   ("sc", [(0x2C, 0x2D), (0x3A, 0x3B), (0x37E, 0x37E), (0x55D, 0x55D), (0x60C, 0x60D),
      (0x7F8, 0x7F8), (0x1802, 0x1802), (0x1808, 0x1808), (0x2013, 0x2014), (0x3001, 0x3001),
      (0xFE10, 0xFE11), (0xFE13, 0xFE14), (0xFE31, 0xFE32), (0xFE50, 0xFE51), (0xFE54, 0xFE55),
      (0xFE58, 0xFE58), (0xFE63, 0xFE63), (0xFF0C, 0xFF0D), (0xFF1A, 0xFF1B), (0xFF64, 0xFF64)]),
   ("se", [(0x85, 0x85), (0x2028, 0x2029)]),
   ("sp", (property "wspace").difference
      (anyOf [[(0x0A, 0x0A), (0x0D, 0x0D)], [(0x85, 0x85), (0x2028, 0x2029)]])),
   ("st", (property "sterm").difference fullStop),
   ("up", sentenceUpper)]

/-- The short names of the classes in sentences. -/
def sentenceAliases : List (String × String) :=
  [("aterm", "at"), ("close", "cl"), ("extend", "ex"), ("format", "fo"), ("lower", "lo"),
   ("numeric", "nu"), ("oletter", "le"), ("scontinue", "sc"), ("sep", "se"), ("sterm", "st"),
   ("upper", "up")]

end RdfStore.Unicode.Segmentation
