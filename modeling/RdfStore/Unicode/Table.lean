import RdfStore.Text.CharClass

/-!
# Tables of characters

The form in which tables of characters are written down. Numbers are in base 36 and
separated by blanks. A set of characters is a sequence of ranges: how far the range
starts behind the last one and, after a hyphen, how many characters follow its first. A
list of numbers has commas between them.
-/

set_option autoImplicit false

/-!
## Sets of characters

Sets of characters as ranges of their numbers. The ranges of a set come in order and do not
touch, so that a set has one form. The numbers between the two halves of the code space
belong to no character: no set starts or ends among them.
-/

namespace RdfStore.Unicode

/-- Ranges of characters, in order. -/
abbrev Ranges := List (Nat × Nat)

namespace Ranges

/-- The number of the last character. -/
def lastNumber : Nat := 0x10FFFF

/-- The number after a character's, past the numbers of no character. -/
def numberAfter (n : Nat) : Nat := if n = 0xD7FF then 0xE000 else n + 1

/-- The number before a character's, past the numbers of no character. -/
def numberBefore (n : Nat) : Nat := if n = 0xE000 then 0xD7FF else n - 1

/-- Whether a number lies in one of the ranges. -/
def contains : Ranges → Nat → Bool
  | [], _ => false
  | (first, last) :: rest, n => if n < first then false else n ≤ last || contains rest n

/-- The set of one character. -/
def single (n : Nat) : Ranges := [(n, n)]

/-- The set of all characters. -/
def full : Ranges := [(0, lastNumber)]

/-- A range with those after it, joined with the ones it touches. -/
def joinFrom (first last : Nat) : Ranges → Ranges
  | [] => [(first, last)]
  | (a, b) :: rest =>
    if a ≤ numberAfter last then joinFrom first (max last b) rest
    else (first, last) :: joinFrom a b rest

/-- The set of the characters in any of the ranges, which may come in any order. -/
def ofList (ranges : List (Nat × Nat)) : Ranges :=
  match ranges.mergeSort fun a b => a.1 ≤ b.1 with
  | [] => []
  | (first, last) :: rest => joinFrom first last rest

/-- The characters in either set. -/
def union (a b : Ranges) : Ranges :=
  match a, b with
  | [], b => b
  | a, [] => a
  | a, b => ofList (a ++ b)

/-- The characters from a number on that are in none of the ranges. -/
def gapsFrom (next : Nat) : Ranges → Ranges
  | [] => if next ≤ lastNumber then [(next, lastNumber)] else []
  | (first, last) :: rest =>
    if next < first then (next, numberBefore first) :: gapsFrom (numberAfter last) rest
    else gapsFrom (numberAfter last) rest

/-- The characters that are not in a set. -/
def complement (a : Ranges) : Ranges := gapsFrom 0 a

/-- The set, or the characters that are not in it. -/
def complementIf (negated : Bool) (a : Ranges) : Ranges := if negated then a.complement else a

/-- The characters in both sets. -/
def intersection (a b : Ranges) : Ranges := (union a.complement b.complement).complement

/-- The characters in the first set only. -/
def difference (a b : Ranges) : Ranges := (union a.complement b).complement

/-- The characters in one of the sets only. -/
def symmetricDifference (a b : Ranges) : Ranges := difference (union a b) (intersection a b)

/-- Whether a set holds characters of ASCII only. -/
def isAscii (a : Ranges) : Bool := a.all fun range => range.2 < 0x80

end Ranges

end RdfStore.Unicode

namespace RdfStore.Unicode

open RdfStore.Text

/-- Sets of characters under their names. -/
abbrev Table := List (String × Ranges)

/-- The value of a digit in base 36. -/
def digitValue (c : Char) : Nat :=
  if isAsciiDigit c then c.toNat - 0x30 else c.toNat - 0x61 + 10

/-- The number that digits in base 36 write. -/
def readNumber (digits : List Char) : Nat := digits.foldl (fun n c => n * 36 + digitValue c) 0

/-- The number that digits in base 36 write, with an optional minus sign. -/
def readInteger : List Char → Int
  | '-' :: digits => -(readNumber digits : Int)
  | digits => readNumber digits

/-- The items of a table. -/
def items (lines : List String) : List (List Char) :=
  lines.flatMap fun line => line.toList.splitOn ' '

/-- Reads ranges, each relative to the end of the one before it. -/
def decodeRanges : Nat → List (List Char) → Ranges
  | _, [] => []
  | start, item :: rest =>
    let parts := (item.splitOn '-').map readNumber
    let first := start + parts.headD 0
    let last := first + parts.tail.headD 0
    (first, last) :: decodeRanges (last + 1) rest

/-- Reads sets of characters under their names. -/
def Table.decode (sets : List (String × List String)) : Table :=
  sets.map fun set => (set.1, decodeRanges 0 (items set.2))

/-- The set under a name; a name that is not in the table has no characters. -/
def Table.get (table : Table) (name : String) : Ranges := (table.lookup name).getD []

/-- Reads lists of numbers. -/
def decodeLists (lines : List String) : List (List Nat) :=
  (items lines).map fun item => (item.splitOn ',').map readNumber

/-- Characters at a fixed distance from one another, each with a partner at a fixed
distance. -/
structure Run where
  start : Nat
  count : Nat
  step : Nat
  offset : Int

namespace Run

/-- Reads runs. -/
def decode (lines : List String) : List Run :=
  (items lines).filterMap fun item =>
    match item.splitOn ',' with
    | [start, count, step, offset] =>
      some ⟨readNumber start, readNumber count, readNumber step, readInteger offset⟩
    | _ => none

/-- Whether a number is one of the characters of a run. -/
def contains (r : Run) (n : Nat) : Bool :=
  r.start ≤ n && n < r.start + r.count * r.step && (n - r.start) % r.step == 0

/-- The partner of a number that is in one of the runs. -/
def partner? (runs : List Run) (n : Nat) : Option Nat :=
  (runs.find? fun r => r.contains n).map fun r => ((n : Int) + r.offset).toNat

/-- The numbers of a run, each with its partner. -/
def pairs (r : Run) : List (Nat × Nat) :=
  (List.range r.count).map fun i =>
    let n := r.start + i * r.step
    (n, ((n : Int) + r.offset).toNat)

end Run

end RdfStore.Unicode
