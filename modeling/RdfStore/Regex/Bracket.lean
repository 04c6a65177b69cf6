import RdfStore.Regex.Escape

/-!
# Bracketed classes

The sets between brackets: characters, ranges, named classes, sets in further brackets, and
operations on two sets. With each set goes the depth to which its text is nested, since
texts that are nested too deep are refused. The operations, their order and the names of classes
are those that the library `regex` documents.
-/

set_option autoImplicit false

namespace RdfStore.Regex

open RdfStore.Text
open RdfStore.Unicode (Ranges)

/-- The classes between `[:` and `:]`. -/
def namedClass? (name : String) : Option Ranges :=
  match name with
  | "alnum" => some [(0x30, 0x39), (0x41, 0x5A), (0x61, 0x7A)]
  | "alpha" => some [(0x41, 0x5A), (0x61, 0x7A)]
  | "ascii" => some [(0x00, 0x7F)]
  | "blank" => some [(0x09, 0x09), (0x20, 0x20)]
  | "cntrl" => some [(0x00, 0x1F), (0x7F, 0x7F)]
  | "digit" => some [(0x30, 0x39)]
  | "graph" => some [(0x21, 0x7E)]
  | "lower" => some [(0x61, 0x7A)]
  | "print" => some [(0x20, 0x7E)]
  | "punct" => some [(0x21, 0x2F), (0x3A, 0x40), (0x5B, 0x60), (0x7B, 0x7E)]
  | "space" => some [(0x09, 0x0D), (0x20, 0x20)]
  | "upper" => some [(0x41, 0x5A)]
  | "word" => some [(0x30, 0x39), (0x41, 0x5A), (0x5F, 0x5F), (0x61, 0x7A)]
  | "xdigit" => some [(0x30, 0x39), (0x41, 0x46), (0x61, 0x66)]
  | _ => none

/-- The operations on sets inside brackets. -/
inductive SetOp where
  | intersection | difference | symmetricDifference

/-- The result of an operation. -/
def SetOp.apply (op : SetOp) (a b : Ranges) : Ranges :=
  match op with
  | .intersection => a.intersection b
  | .difference => a.difference b
  | .symmetricDifference => a.symmetricDifference b

/-- The operation that two equal signs write. -/
def SetOp.ofSign? : Char → Option SetOp
  | '&' => some .intersection
  | '-' => some .difference
  | '~' => some .symmetricDifference
  | _ => none

/-- A set and how deep its text is nested. -/
structure Nested where
  members : Ranges
  depth : Nat

/-- What is read of a bracketed class: the set before the last operation, and the members
after it, with their number and the depth of the deepest. -/
structure Bracket where
  before : Option (Nested × SetOp)
  members : Ranges
  count : Nat
  deepest : Nat

namespace Bracket

/-- The start of a class, or the part after an operation. -/
def after (before : Option (Nested × SetOp)) : Bracket := ⟨before, [], 0, 0⟩

/-- The class with one more member. -/
def add (b : Bracket) (more : Nested) : Bracket :=
  { b with
    members := b.members.union more.members
    count := b.count + 1
    deepest := max b.deepest more.depth }

/-- The members after the last operation; more than one of them make a level of their own. -/
def last (b : Bracket) : Nested :=
  ⟨b.members, if b.count ≤ 1 then b.deepest else b.deepest + 1⟩

/-- The set that is read so far; operands of an operation are folded before it. -/
def value (flags : Flags) (b : Bracket) : Nested :=
  match b.before with
  | none => b.last
  | some (left, op) =>
    ⟨op.apply (flags.fold left.members) (flags.fold b.members), max left.depth b.last.depth + 1⟩

end Bracket

/-- A member of a bracketed class: one character or a class. -/
def readMember : Reader Primitive := do
  let c ← need
  if c = '\\' then readEscape
  else do
    bump
    return .literal c false

/-- The character that has to be there as an end of a range. Under flags for ASCII it is one of
ASCII. -/
def literalOf (flags : Flags) : Primitive → Reader Char
  | .literal c _ => if !flags.unicode && 0x80 ≤ c.toNat then failure else return c
  | _ => failure

/-- Whether a member is the start of a range: a hyphen follows, and neither the end of the
class nor another hyphen follows it. -/
def startsRange : Reader Bool := do
  let s ← get
  match s.rest with
  | '-' :: rest =>
    let next :=
      if s.flags.ignoreSpace then (afterSpace? false rest).or rest.head? else rest.head?
    return !(next == some ']' || next == some '-')
  | _ => return false

/-- A range or a member. -/
def readRange (flags : Flags) : Reader Nested := do
  let first ← readMember
  skipSpace
  let _ ← need
  if ← startsRange then
    let _ ← nextNeeded
    let second ← readMember
    let low ← literalOf flags first
    let high ← literalOf flags second
    if high.toNat < low.toNat then failure
    return ⟨Ranges.ofList [(low.toNat, high.toNat)], 0⟩
  else
    match first with
    | .set members => return ⟨members, 0⟩
    | primitive => return ⟨Ranges.single (← literalOf flags primitive).toNat, 0⟩

/-- A class such as `[:alpha:]`, if there is one. -/
def readNamedClass? (flags : Flags) : Reader (Option Nested) := do
  match (← get).rest with
  | '[' :: ':' :: rest =>
    let (negated, rest) :=
      match rest with
      | '^' :: rest => (true, rest)
      | _ => (false, rest)
    let name := rest.takeWhile (· != ':')
    match rest.dropWhile (· != ':'), namedClass? (String.ofList name) with
    | ':' :: ']' :: rest, some members =>
      modify fun s => { s with rest := rest }
      return some ⟨← orFail (flags.foldedIf? negated members), 0⟩
    | _, _ => return none
  | _ => return none

/-- Takes hyphens at the start of a class as members. -/
def readHyphens : Nat → Bracket → Reader Bracket
  | 0, b => return b
  | fuel + 1, b => do
    if (← need) = '-' then
      let _ ← nextNeeded
      readHyphens fuel (b.add ⟨Ranges.single '-'.toNat, 0⟩)
    else return b

/-- The opening of a bracketed class: whether it is negated, and its first members. A closing
bracket that comes first is a member. -/
def openBracket : Reader (Bool × Bracket) := do
  let first ← nextNeeded
  let negated := first = '^'
  if negated then
    let _ ← nextNeeded
  let hadHyphen := (← need) = '-'
  let b ← readHyphens (← remaining) (Bracket.after none)
  if !hadHyphen && (← need) = ']' then
    let _ ← nextNeeded
    return (negated, b.add ⟨Ranges.single ']'.toNat, 0⟩)
  else return (negated, b)

mutual

/-- A bracketed class. -/
def readBracket : Nat → Reader Nested
  | 0 => failure
  | fuel + 1 => do
    let flags := (← get).flags
    let (negated, b) ← openBracket
    let inner ← readMembers fuel b
    return ⟨← orFail (flags.foldedIf? negated inner.members), inner.depth + 1⟩

/-- The members of a bracketed class up to its end. -/
def readMembers : Nat → Bracket → Reader Nested
  | 0, _ => failure
  | fuel + 1, b => do
    let flags := (← get).flags
    skipSpace
    let c ← need
    let doubled := ((← get).rest.drop 1).head? == some c
    match SetOp.ofSign? c, doubled with
    | some op, true => do
      bump
      bump
      readMembers fuel (Bracket.after (some (b.value flags, op)))
    | _, _ =>
      if c = ']' then do
        bump
        return b.value flags
      else if c = '[' then do
        match ← readNamedClass? flags with
        | some nested => readMembers fuel (b.add nested)
        | none => do
          let nested ← readBracket fuel
          readMembers fuel (b.add nested)
      else do
        let nested ← readRange flags
        readMembers fuel (b.add nested)

end

end RdfStore.Regex
