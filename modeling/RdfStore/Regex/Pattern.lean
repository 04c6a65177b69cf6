import RdfStore.Unicode.Class

/-!
# Regular expressions

Patterns over characters, and the search for a match. The functions that build patterns
from parts leave out what makes no difference, so that a pattern has few shapes. A search
follows all matches at once: it carries the set of places that a match can have reached,
one flag for each place between the characters of the text, so no choice has to be taken
back.

Whether a pattern matches somewhere in a text is all that is asked of the library `regex`, so this is
what a pattern means here: some match, as its documentation describes the parts of patterns.
-/

set_option autoImplicit false

namespace RdfStore.Regex

open RdfStore.Unicode

/-- Conditions on the characters before and after a place, with regard to words. -/
inductive WordEdge where
  /-- A word starts or ends here. -/
  | boundary
  /-- No word starts or ends here. -/
  | inside
  /-- A word starts here. -/
  | start
  /-- A word ends here. -/
  | finish
  /-- No word is before. -/
  | startHalf
  /-- No word is after. -/
  | endHalf
deriving DecidableEq

/-- Conditions on a place between characters. -/
inductive Look where
  | textStart
  | textEnd
  /-- At the start of the text or after a line feed. -/
  | lineStart
  /-- At the end of the text or before a line feed. -/
  | lineEnd
  /-- As `lineStart`, where a carriage return ends lines too. -/
  | anyLineStart
  /-- As `lineEnd`, where a carriage return ends lines too. -/
  | anyLineEnd
  /-- A condition on words, of all scripts or of ASCII. -/
  | word (edge : WordEdge) (unicode : Bool)
deriving DecidableEq

/-- A pattern. -/
inductive Pattern where
  /-- The empty text. -/
  | empty
  /-- These characters, of which there is one at least. -/
  | literal (chars : List Char)
  /-- One character of a set. -/
  | set (members : Ranges)
  /-- The empty text at a place that satisfies a condition. -/
  | look (condition : Look)
  /-- As often as the bounds allow. -/
  | times (item : Pattern) (least : Nat) (most : Option Nat)
  /-- A group with its number. -/
  | group (number : Nat) (item : Pattern)
  /-- One after the other. -/
  | seq (items : List Pattern)
  /-- Any of these. -/
  | choice (items : List Pattern)

namespace Pattern

/-! ## What is known of matches -/

mutual

/-- Whether every match is empty. -/
def isAlwaysEmpty : Pattern → Bool
  | .empty | .look _ => true
  | .literal _ | .set _ => false
  | .times item _ most => most == some 0 || (most.isSome && item.isAlwaysEmpty)
  | .group _ item => item.isAlwaysEmpty
  | .seq items | .choice items => areAlwaysEmpty items

/-- Whether every match of each pattern is empty. -/
def areAlwaysEmpty : List Pattern → Bool
  | [] => true
  | p :: rest => p.isAlwaysEmpty && areAlwaysEmpty rest

end

mutual

/-- A number of characters that every match has, or `none` where there may be no match. -/
def leastLength? : Pattern → Option Nat
  | .empty | .look _ => some 0
  | .literal chars => some chars.length
  | .set members => if members.isEmpty then none else some 1
  | .times item least _ => item.leastLength?.map (· * least)
  | .group _ item => item.leastLength?
  | .seq items => (leastLengths? items).map fun lengths => lengths.foldl (· + ·) 0
  | .choice items =>
    (leastLengths? items).map fun lengths => lengths.tail.foldl min (lengths.headD 0)

/-- The same for each of the patterns. -/
def leastLengths? : List Pattern → Option (List Nat)
  | [] => some []
  | p :: rest => do return (← p.leastLength?) :: (← leastLengths? rest)

end

/-- Whether it is known that no match is empty. -/
def isNeverEmpty (p : Pattern) : Bool := p.leastLength?.any (0 < ·)

mutual

/-- Whether every match stands at a place with a condition that is looked at first, or last
where the pattern is read from its end. -/
def isBound (fromEnd : Bool) (condition : Look) : Pattern → Bool
  | .empty | .literal _ | .set _ => false
  | .look c => c == condition
  | .times item least _ => 0 < least && item.isBound fromEnd condition
  | .group _ item => item.isBound fromEnd condition
  | .seq items =>
    let bounds := boundsOf fromEnd condition items
    let bounds := if fromEnd then bounds.reverse else bounds
    let leading := bounds.takeWhile (·.2)
    (leading ++ (bounds.drop leading.length).take 1).any (·.1)
  | .choice items => (boundsOf fromEnd condition items).all (·.1)

/-- Whether each pattern is bound so, and whether its matches are always empty. -/
def boundsOf (fromEnd : Bool) (condition : Look) : List Pattern → List (Bool × Bool)
  | [] => []
  | p :: rest => (p.isBound fromEnd condition, p.isAlwaysEmpty) :: boundsOf fromEnd condition rest

end

mutual

/-- Whether two patterns are the same. -/
def same : Pattern → Pattern → Bool
  | .empty, .empty => true
  | .literal a, .literal b => a == b
  | .set a, .set b => a == b
  | .look a, .look b => a == b
  | .times a least most, .times b least' most' => least == least' && most == most' && same a b
  | .group m a, .group n b => m == n && same a b
  | .seq a, .seq b => sameList a b
  | .choice a, .choice b => sameList a b
  | _, _ => false

/-- Whether two lists hold the same patterns. -/
def sameList : List Pattern → List Pattern → Bool
  | [], [] => true
  | a :: as, b :: bs => same a b && sameList as bs
  | _, _ => false

end

/-! ## Building patterns -/

/-- A set; a set of one character is a literal. -/
def ofRanges (members : Ranges) : Pattern :=
  match members with
  | [(first, last)] => if first = last then .literal [Char.ofNat first] else .set members
  | _ => .set members

/-- A repetition. Repeating the empty text changes nothing after the first time. -/
def repeated (item : Pattern) (least : Nat) (most : Option Nat) : Pattern :=
  let (least, most) :=
    if item.isAlwaysEmpty then (min least 1, some (min (most.getD 1) 1)) else (least, most)
  if least = 0 && most = some 0 then .empty
  else if least = 1 && most = some 1 then item
  else .times item least most

/-- The items of a pattern in a row. -/
def parts : Pattern → List Pattern
  | .empty => []
  | .seq items => items
  | p => [p]

/-- Puts a pattern before a row; two literals become one. -/
def consPart (p : Pattern) (row : List Pattern) : List Pattern :=
  match p, row with
  | .literal a, .literal b :: rest => .literal (a ++ b) :: rest
  | p, row => p :: row

/-- Patterns one after the other. -/
def sequence (items : List Pattern) : Pattern :=
  match (items.flatMap parts).foldr consPart [] with
  | [] => .empty
  | [p] => p
  | row => .seq row

/-- The choices of a pattern. -/
def choices : Pattern → List Pattern
  | .choice items => items
  | p => [p]

/-- The set of a pattern for one character. -/
def members? : Pattern → Option Ranges
  | .set members => some members
  | _ => none

/-- The set of a literal of one character. -/
def singleton? : Pattern → Option Ranges
  | .literal [c] => some (Ranges.single c.toNat)
  | _ => none

/-- The items at the start that two rows have in common. -/
def commonStart : List Pattern → List Pattern → List Pattern
  | a :: as, b :: bs => if same a b then a :: commonStart as bs else []
  | _, _ => []

/-- The rows of patterns that all are rows. -/
def rows? : List Pattern → Option (List (List Pattern))
  | [] => some []
  | .seq items :: rest => (rows? rest).map (items :: ·)
  | _ :: _ => none

/-- A choice among patterns that are no choices themselves. Characters become a set, and a
start that all have in common is taken out. -/
def choiceOf : Nat → List Pattern → Pattern
  | _, [] => .set []
  | _, [p] => p
  | 0, items => .choice items
  | fuel + 1, items =>
    match (items.mapM singleton?).or (items.mapM members?) with
    | some sets => ofRanges (sets.foldl Ranges.union [])
    | none =>
      match rows? items with
      | some (row :: rest) =>
        let start := rest.foldl commonStart row
        if start.isEmpty then .choice items
        else
          let ends := (row :: rest).map fun r => sequence (r.drop start.length)
          sequence (start ++ [choiceOf fuel (ends.flatMap choices)])
      | _ => .choice items

mutual

/-- How deep a pattern is nested. -/
def height : Pattern → Nat
  | .empty | .literal _ | .set _ | .look _ => 1
  | .times item _ _ => item.height + 1
  | .group _ item => item.height + 1
  | .seq items => heightOf items + 1
  | .choice items => heightOf items + 1

/-- How deep the deepest of some patterns is nested. -/
def heightOf : List Pattern → Nat
  | [] => 0
  | p :: rest => max p.height (heightOf rest)

end

/-- Any of some patterns. -/
def alternatives (items : List Pattern) : Pattern :=
  let items := items.flatMap choices
  choiceOf (heightOf items + 1) items

/-! ## Search -/

/-- A set of places of a text: a flag for each, from its start to its end. -/
abbrev Places := List Bool

/-- The places in either set. -/
def union (a b : Places) : Places := List.zipWith or a b

/-- The places right after a character that satisfies a condition. -/
def advance (text : List Char) (isMember : Char → Bool) (from_ : Places) : Places :=
  false :: List.zipWith (fun c reached => reached && isMember c) text from_

end Pattern

/-- Whether a character belongs to words, of all scripts or of ASCII. -/
def isWordChar (unicode : Bool) (c : Char) : Bool :=
  if unicode then wordChars.contains c.toNat
  else Text.isAsciiAlphanumeric c || c == '_'

/-- Whether the characters around a place satisfy a condition on words. -/
def WordEdge.holds (edge : WordEdge) (isBefore isAfter : Bool) : Bool :=
  match edge with
  | .boundary => isBefore != isAfter
  | .inside => isBefore == isAfter
  | .start => !isBefore && isAfter
  | .finish => isBefore && !isAfter
  | .startHalf => !isBefore
  | .endHalf => !isAfter

/-- Whether the characters around a place satisfy a condition; the ends of the text count as
no character. -/
def Look.holds (condition : Look) (before after : Option Char) : Bool :=
  match condition with
  | .textStart => before.isNone
  | .textEnd => after.isNone
  | .lineStart => before.isNone || before == some '\n'
  | .lineEnd => after.isNone || after == some '\n'
  | .anyLineStart =>
    before.isNone || before == some '\n' || (before == some '\r' && after != some '\n')
  | .anyLineEnd =>
    after.isNone || after == some '\r' || (after == some '\n' && before != some '\r')
  | .word edge unicode =>
    edge.holds (before.any (isWordChar unicode)) (after.any (isWordChar unicode))

namespace Pattern

/-- The places between characters that satisfy a condition. -/
def inspect (text : List Char) (condition : Look) (from_ : Places) : Places :=
  let before := none :: text.map some
  let after := text.map some ++ [none]
  List.zipWith and (List.zipWith condition.holds before after) from_

/-- The places after so many steps. -/
def iterate (step : Places → Places) : Nat → Places → Places
  | 0, reached => reached
  | n + 1, reached => iterate step n (step reached)

/-- The places after at most so many steps. -/
def closure (step : Places → Places) : Nat → Places → Places
  | 0, reached => reached
  | n + 1, reached =>
    let more := union reached (step reached)
    if more = reached then reached else closure step n more

mutual

/-- The places that a match from one of the given places can end at. More steps than there
are places add nothing, so a repetition takes no more. -/
def follow (text : List Char) : Pattern → Places → Places
  | .empty, reached => reached
  | .literal chars, reached => chars.foldl (fun places c => advance text (· == c) places) reached
  | .set members, reached => advance text (fun c => members.contains c.toNat) reached
  | .look condition, reached => inspect text condition reached
  | .times item least most, reached =>
    let enough := text.length + 1
    let rest := (most.map fun m => m - least).getD enough
    closure (follow text item) (min rest enough)
      (iterate (follow text item) (min least enough) reached)
  | .group _ item, reached => follow text item reached
  | .seq items, reached => followAll text items reached
  | .choice items, reached => followAny text items reached

/-- The places after a match of each pattern, one after the other. -/
def followAll (text : List Char) : List Pattern → Places → Places
  | [], reached => reached
  | p :: rest, reached => followAll text rest (follow text p reached)

/-- The places after a match of one of the patterns. -/
def followAny (text : List Char) : List Pattern → Places → Places
  | [], reached => reached.map fun _ => false
  | p :: rest, reached => union (follow text p reached) (followAny text rest reached)

end

/-- Whether some part of a text matches. -/
def isFoundIn (p : Pattern) (text : List Char) : Bool :=
  (p.follow text (List.replicate (text.length + 1) true)).any id

end Pattern

end RdfStore.Regex
