import RdfStore.Regex.Pattern
import RdfStore.Text.CharClass
import RdfStore.Unicode.Case

/-!
# Walking over the text of a pattern

The state in which a pattern is read, and the steps that take characters from its text.
White space and comments are skipped where a flag says that they mean nothing, as the library
`regex` documents of its verbose mode.
-/

set_option autoImplicit false

/-!
## Flags

What the flags of a pattern change: which sets its characters and short names stand for, and
which conditions its signs. Where classes do not go beyond ASCII, a set that does is
refused, since it could end inside the encoding of a character.
-/

namespace RdfStore.Regex

open RdfStore.Text
open RdfStore.Unicode (Ranges)

/-- What a pattern's characters and signs mean. -/
structure Flags where
  ignoreCase : Bool
  /-- `^` and `$` match at the ends of lines. -/
  multiLine : Bool
  /-- The dot matches the end of a line. -/
  dotAll : Bool
  /-- White space and comments in the pattern mean nothing. -/
  ignoreSpace : Bool
  /-- Classes and case go beyond ASCII. -/
  unicode : Bool
  /-- A carriage return ends a line too. -/
  carriageReturn : Bool

namespace Flags

/-- The flags before any is set. -/
def default : Flags := ⟨false, false, false, false, true, false⟩

/-- Sets a flag given by its letter. -/
def set? (flags : Flags) (letter : Char) (value : Bool) : Option Flags :=
  match letter with
  | 'i' => some { flags with ignoreCase := value }
  | 'm' => some { flags with multiLine := value }
  | 's' => some { flags with dotAll := value }
  | 'x' => some { flags with ignoreSpace := value }
  | 'u' => some { flags with unicode := value }
  | 'R' => some { flags with carriageReturn := value }
  | 'U' => some flags
  | _ => none

/-! ## Sets -/

/-- A set with the letters of ASCII that differ from its members in case only. -/
def foldAscii (a : Ranges) : Ranges :=
  let partners := (List.range 26).flatMap fun i =>
    (if a.contains (0x41 + i) then [0x61 + i] else [])
      ++ (if a.contains (0x61 + i) then [0x41 + i] else [])
  a.union (Ranges.ofList (partners.map fun n => (n, n)))

/-- The set with all characters that differ from its members in case only. -/
def fold (flags : Flags) (a : Ranges) : Ranges :=
  if !flags.ignoreCase then a
  else if flags.unicode then Unicode.foldRanges a
  else foldAscii a

/-- A set that is allowed under the flags. -/
def allowed? (flags : Flags) (a : Ranges) : Option Ranges :=
  if flags.unicode || a.isAscii then some a else none

/-- A set with regard to case, or its complement. -/
def foldedIf? (flags : Flags) (negated : Bool) (a : Ranges) : Option Ranges :=
  flags.allowed? ((flags.fold a).complementIf negated)

/-- The set of `\d`, `\s` or `\w`, or with a capital letter its complement. -/
def shorthand? (flags : Flags) (letter : Char) : Option Ranges :=
  let letters : Ranges := [(0x41, 0x5A), (0x61, 0x7A)]
  let digits : Ranges := [(0x30, 0x39)]
  let members :=
    match asciiLower letter with
    | 'd' => if flags.unicode then Unicode.digits else digits
    | 's' => if flags.unicode then Unicode.whiteSpace else [(0x09, 0x0D), (0x20, 0x20)]
    | _ =>
      if flags.unicode then Unicode.wordChars else (digits.union letters).union [(0x5F, 0x5F)]
  flags.allowed? (members.complementIf (letter != asciiLower letter))

/-- The pattern of a character. -/
def literal (flags : Flags) (c : Char) : Pattern :=
  Pattern.ofRanges (flags.fold (Ranges.single c.toNat))

/-- The pattern of the dot. -/
def dot? (flags : Flags) : Option Pattern :=
  if !flags.unicode then none
  else if flags.dotAll then some (.set Ranges.full)
  else if flags.carriageReturn then
    some (.set (Ranges.complement [(0x0A, 0x0A), (0x0D, 0x0D)]))
  else some (.set (Ranges.complement [(0x0A, 0x0A)]))

/-! ## Conditions -/

/-- The condition of `^`. -/
def start (flags : Flags) : Look :=
  if !flags.multiLine then .textStart
  else if flags.carriageReturn then .anyLineStart
  else .lineStart

/-- The condition of `$`. -/
def finish (flags : Flags) : Look :=
  if !flags.multiLine then .textEnd
  else if flags.carriageReturn then .anyLineEnd
  else .lineEnd

end Flags

end RdfStore.Regex

namespace RdfStore.Regex

open RdfStore.Text

/-- What is left of the pattern, the flags at this place, and the number of groups and their
names so far. -/
structure State where
  rest : List Char
  flags : Flags
  groups : Nat
  names : List (List Char)

/-- Reading a part of a pattern; a pattern that is not well formed has no value. -/
abbrev Reader := StateT State Option

/-! ## Characters of the pattern -/

/-- The next character, if there is one. -/
def peek : Reader (Option Char) := do return (← get).rest.head?

/-- The next character, which has to be there. -/
def need : Reader Char := do
  match (← get).rest with
  | c :: _ => return c
  | [] => failure

/-- Moves past one character. -/
def bump : Reader Unit := modify fun s => { s with rest := s.rest.drop 1 }

/-- Drops white space and comments; the flag tells whether the text starts in a comment. -/
def dropSpace : Bool → List Char → List Char
  | _, [] => []
  | true, c :: rest => dropSpace (c != '\n') rest
  | false, c :: rest =>
    if isSpace c then dropSpace false rest
    else if c = '#' then dropSpace true rest
    else c :: rest

/-- The next character after white space, which can stand in a comment too: of a comment only
its sign and white space are passed over. -/
def afterSpace? : Bool → List Char → Option Char
  | _, [] => none
  | inComment, c :: rest =>
    if isSpace c then afterSpace? inComment rest
    else if c = '#' && !inComment then afterSpace? true rest
    else some c

/-- Skips white space and comments where they mean nothing. -/
def skipSpace : Reader Unit :=
  modify fun s => if s.flags.ignoreSpace then { s with rest := dropSpace false s.rest } else s

/-- Moves past one character and the white space after it. -/
def bumpSpace : Reader Unit := do
  bump
  skipSpace

/-- Moves past one character and white space to one that has to be there. -/
def nextNeeded : Reader Char := do
  bumpSpace
  need

/-- Moves past a character that has to be this one. -/
def expect (c : Char) : Reader Unit := do
  if (← need) = c then bump else failure

/-- Moves past a character if it is this one. -/
def bumpIf (c : Char) : Reader Bool := do
  if (← peek) = some c then
    bump
    return true
  else return false

/-- Takes characters while they satisfy a condition. -/
def takeWhile (p : Char → Bool) : Reader (List Char) := do
  let s ← get
  set { s with rest := s.rest.dropWhile p }
  return s.rest.takeWhile p

/-- Takes characters while they satisfy a condition, and the white space after each. -/
def takeSpaced (p : Char → Bool) : Nat → Reader (List Char)
  | 0 => return []
  | fuel + 1 => do
    match ← peek with
    | some c =>
      if p c then
        bumpSpace
        return c :: (← takeSpaced p fuel)
      else return []
    | none => return []

/-- As many characters as there are left. -/
def remaining : Reader Nat := do return (← get).rest.length

/-- A value that has to be there. -/
def orFail {α : Type} (value : Option α) : Reader α := StateT.lift value

end RdfStore.Regex
