import RdfStore.Regex.Automaton
import RdfStore.Regex.Bracket

/-!
# Reading regular expressions

The syntax of patterns: classes with set operations, counted repetitions, groups with
flags, named groups, and escapes, without references to groups and without conditions on
what surrounds a match. Flags hold to the end of their group. Greed changes only which
match is found first, not whether there is one, so it is read and dropped.

The syntax is the one that the library `regex` documents, with its limits on nesting and on the size
of what a pattern is compiled to; a pattern that it refuses has no reading here either.
-/

set_option autoImplicit false

namespace RdfStore.Regex

open RdfStore.Text

/-! ## Repetitions -/

/-- A number between white space. -/
def readCount : Reader (Option Nat) := do
  let _ ← takeWhile isSpace
  let digits ← takeSpaced isAsciiDigit (← remaining)
  let _ ← takeWhile isSpace
  if digits.isEmpty then return none
  let n := digits.foldl (fun n c => n * 10 + Unicode.digitValue c) 0
  if n < 4294967296 then return some n else failure

/-- The bounds of a repetition between braces. -/
def readBounds : Reader (Nat × Option Nat) := do
  let _ ← nextNeeded
  let least ← readCount
  let c ← need
  let bounds ←
    if c = ',' then do
      if (← nextNeeded) = '\x7d' then do
        match least with
        | some least => pure (least, none)
        | none => failure
      else
        match least, ← readCount with
        | some least, some most => pure (least, some most)
        | _, _ => failure
    else
      match least with
      | some n => pure (n, some n)
      | none => failure
  if (← need) != '\x7d' then failure
  bumpSpace
  let _ ← bumpIf '?'
  if bounds.2.any (· < bounds.1) then failure
  return bounds

/-- The bounds of the signs of repetition. -/
def boundsOf : Char → Nat × Option Nat
  | '?' => (0, some 1)
  | '*' => (0, none)
  | _ => (1, none)

/-! ## Groups -/

/-- The flags that a group sets, and the letters seen so far; the last part tells whether a
minus sign still waits for its flag. -/
structure FlagChange where
  flags : Flags
  seen : List Char
  negative : Bool
  waiting : Bool

/-- Takes the flags of a group one by one. -/
def changeFlags (change : FlagChange) : List Char → Option FlagChange
  | [] => some change
  | '-' :: rest =>
    if change.negative then none
    else changeFlags { change with negative := true, waiting := true } rest
  | letter :: rest =>
    if change.seen.contains letter then none
    else
      match change.flags.set? letter (!change.negative) with
      | some flags =>
        changeFlags ⟨flags, letter :: change.seen, change.negative, false⟩ rest
      | none => none

/-- The flags between a question mark and the colon or parenthesis after them. -/
def readFlags : Reader (Flags × Bool) := do
  let flags := (← get).flags
  let letters ← takeWhile fun c => !(c == ':' || c == ')')
  match changeFlags ⟨flags, [], false, false⟩ letters with
  | some change => if change.waiting then failure else return (change.flags, letters.isEmpty)
  | none => failure

/-- Whether a character can stand in the name of a group. -/
def isGroupNameChar (c : Char) : Bool :=
  c == '_' || c == '.' || c == '[' || c == ']' || Unicode.alphanumeric.contains c.toNat

/-- The name of a group, up to its closing bracket. -/
def readGroupName : Reader Unit := do
  let name ← takeWhile isGroupNameChar
  expect '>'
  match name with
  | [] => failure
  | c :: _ =>
    if !(c == '_' || Unicode.alphabetic.contains c.toNat) then failure
    if (← get).names.contains name then failure
    modify fun s => { s with names := name :: s.names }

/-- The number of the next group. -/
def nextGroup : Reader Nat := do
  modify fun s => { s with groups := s.groups + 1 }
  return (← get).groups

/-- What an opening parenthesis starts. -/
inductive Opening where
  /-- Flags for what follows. -/
  | flags
  /-- A group, under flags; one that is counted has a number. -/
  | group (flags : Flags) (number : Option Nat)

/-- What follows an opening parenthesis. -/
def openGroup : Reader Opening := do
  bumpSpace
  let flags := (← get).flags
  match (← get).rest with
  | '?' :: 'P' :: '<' :: rest | '?' :: '<' :: rest =>
    modify fun s => { s with rest := rest }
    let number ← nextGroup
    readGroupName
    return .group flags (some number)
  | '?' :: _ => do
    bump
    let (changed, isEmpty) ← readFlags
    let c ← need
    bump
    if c = ')' then
      if isEmpty then failure
      modify fun s => { s with flags := changed }
      return .flags
    else return .group changed none
  | _ => return .group flags (some (← nextGroup))

/-! ## Rows and choices -/

/-- A pattern and how deep its text is nested. -/
structure Reading where
  pattern : Pattern
  depth : Nat

namespace Reading

/-- The depth of the deepest. -/
def deepest (items : List Reading) : Nat := items.foldl (fun n item => max n item.depth) 0

/-- Items one after the other, given last to first. More than one of them make a level of
their own, also those that only set flags. -/
def row (items : List Reading) : Reading :=
  match items with
  | [] => ⟨.empty, 0⟩
  | [item] => item
  | items => ⟨Pattern.sequence (items.reverse.map (·.pattern)), deepest items + 1⟩

/-- Any of some rows. -/
def choice (rows : List Reading) : Reading :=
  match rows with
  | [row] => row
  | rows => ⟨Pattern.alternatives (rows.map (·.pattern)), deepest rows + 1⟩

/-- A repetition. -/
def repeated (item : Reading) (bounds : Nat × Option Nat) : Reading :=
  ⟨item.pattern.repeated bounds.1 bounds.2, item.depth + 1⟩

/-- A group; one that is counted has a number. -/
def group (inner : Reading) (number : Option Nat) : Reading :=
  match number with
  | some n => ⟨.group n inner.pattern, inner.depth + 1⟩
  | none => ⟨inner.pattern, inner.depth + 1⟩

end Reading

/-- The pattern of an escape. Under flags for ASCII no byte beyond it can be written. -/
def ofPrimitive (flags : Flags) : Primitive → Reader Pattern
  | .literal c isByte =>
    if isByte && !flags.unicode && 0x80 ≤ c.toNat then failure else return flags.literal c
  | .set members => return Pattern.ofRanges members
  | .look condition => return .look condition

/-- Reads what is left of a group as rows, given the items before it, last to first, and
whether the last of them can be repeated. -/
def readRows : Nat → List Reading → Bool → Reader (List Reading)
  | 0, _, _ => failure
  | fuel + 1, done, canRepeat => do
    skipSpace
    let flags := (← get).flags
    let repeatLast := fun bounds : Nat × Option Nat =>
      match done with
      | item :: before =>
        if canRepeat then readRows fuel (item.repeated bounds :: before) true else failure
      | [] => failure
    match ← peek with
    | none | some ')' => return [Reading.row done]
    | some '|' => do
      bump
      return Reading.row done :: (← readRows fuel [] false)
    | some '(' => do
      match ← openGroup with
      | .flags => readRows fuel (⟨.empty, 0⟩ :: done) false
      | .group inner number => do
        modify fun s => { s with flags := inner }
        let rows ← readRows fuel [] false
        expect ')'
        modify fun s => { s with flags := flags }
        readRows fuel ((Reading.choice rows).group number :: done) true
    | some '[' => do
      let nested ← readBracket fuel
      readRows fuel (⟨Pattern.ofRanges nested.members, nested.depth⟩ :: done) true
    | some '\x7b' => do
      if !canRepeat then failure
      let bounds ← readBounds
      repeatLast bounds
    | some '\\' => do
      let item ← ofPrimitive flags (← readEscape)
      readRows fuel (⟨item, 0⟩ :: done) true
    | some c => do
      bump
      if c = '?' || c = '*' || c = '+' then
        let _ ← bumpIf '?'
        repeatLast (boundsOf c)
      else
        let item ←
          if c = '.' then orFail flags.dot?
          else if c = '^' then pure (.look flags.start)
          else if c = '$' then pure (.look flags.finish)
          else pure (flags.literal c)
        readRows fuel (⟨item, 0⟩ :: done) true

/-- The deepest nesting that a pattern may have. -/
def depthLimit : Nat := 250

/-- The pattern that a text writes, if it is well formed, and neither nested too deep nor too
large. -/
def read? (flags : Flags) (text : List Char) : Option Pattern :=
  match (readRows (2 * text.length + 2) [] false).run ⟨text, flags, 0, []⟩ with
  | some (rows, s) =>
    let reading := Reading.choice rows
    if s.rest.isEmpty && reading.depth ≤ depthLimit && reading.pattern.isSmall then
      some reading.pattern
    else none
  | none => none

/-- The flags that their letters set. -/
def flagsOf? : List Char → Option Flags
  | [] => some Flags.default
  | letter :: rest => do
    let flags ← flagsOf? rest
    if letter = 'i' || letter = 'm' || letter = 's' || letter = 'x' then flags.set? letter true
    else none

/-- Whether a pattern with flags is found in a text; `none` for a pattern or flag that is not
well formed. -/
def isFound? (text pattern flags : List Char) : Option Bool := do
  let flags ← flagsOf? flags
  let p ← read? flags pattern
  return p.isFoundIn text

end RdfStore.Regex
