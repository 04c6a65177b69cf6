import RdfStore.Regex.Pattern
import RdfStore.Text.Utf8
import RdfStore.Unicode.Table
import Std.Data.HashMap

/-!
# The size of a pattern's automaton

Patterns that would take too much memory are refused. What counts is the automaton that
reads the bytes of a text: the memory of its states, each with the lists of its branches.
An automaton is measured twice, once for a text read from its start and once for a text
read from its end, where groups take no state.

The states for a set of characters beyond ASCII share what they can: a state that leads
to the same places as an earlier one of the set is used again. The memory for earlier
states is a table with a fixed number of places, and a state that comes to a place takes
it over; so sharing depends on the numbers of the states.

The library `regex` documents a limit of ten mebibytes for a compiled pattern and refuses larger
ones; what is measured follows the states that its compiler makes.
-/

set_option autoImplicit false

/-!
## Sets of characters as bytes

A set of characters written as sequences of ranges of bytes: a text is the encoding of a
member just if its bytes lie in the ranges of one of the sequences, one by one. The
sequences come in the order of their characters.
-/

namespace RdfStore.Regex

open RdfStore.Text

/-- A range of bytes. -/
abbrev ByteRange := Nat × Nat

/-- Where a range of characters has to be cut before it can be written as one sequence: where
the encodings get longer, and where the last bytes do not run through all their values. -/
def cut? (low high : Nat) : Option Nat :=
  let longer := [0x80, 0x800, 0x10000].find? fun n => low < n && n ≤ high
  let unaligned := [64, 4096, 262144].findSome? fun block =>
    if low / block = high / block then none
    else if low % block ≠ 0 then some ((low / block + 1) * block)
    else if (high + 1) % block ≠ 0 then some (high / block * block)
    else none
  longer.or (if high < 0x80 then none else unaligned)

/-- The sequences of a range that lies in one half of the code space. -/
def sequencesBetween (low high : Nat) : List (List ByteRange) :=
  if high < low then []
  else
    match cut? low high with
    | some n =>
      if low < n ∧ n ≤ high then sequencesBetween low (n - 1) ++ sequencesBetween n high
      else []
    | none => [(Utf8.bytesOf low).zip (Utf8.bytesOf high)]
termination_by high - low

/-- The sequences of a set. -/
def sequences (members : Unicode.Ranges) : List (List ByteRange) :=
  members.flatMap fun range =>
    sequencesBetween range.1 (min range.2 0xD7FF) ++ sequencesBetween (max range.1 0xE000) range.2

end RdfStore.Regex

namespace RdfStore.Regex

/-! ## Memory -/

/-- The states of an automaton so far, and the bytes of the lists that belong to them. -/
structure Memory where
  states : Nat
  lists : Nat

namespace Memory

/-- The bytes that an automaton may take. -/
def limit : Nat := 10485760

/-- The bytes of all states. -/
def bytes (m : Memory) : Nat := 32 * m.states + m.lists

/-- Adds states and bytes of lists, unless they are too many. -/
def grow (states lists : Nat) (m : Memory) : Option Memory :=
  let grown : Memory := ⟨m.states + states, m.lists + lists⟩
  if grown.bytes ≤ limit then some grown else none

end Memory

/-- The bytes of an edge in the list of a state that reads a byte. -/
def edgeBytes : Nat := 8

/-- The bytes of a branch in the list of a state that reads nothing. -/
def branchBytes : Nat := 4

/-! ## Sharing states -/

/-- An edge: a range of bytes and the number of the state that it leads to. -/
structure Edge where
  range : ByteRange
  target : Nat
deriving DecidableEq

/-- A table of earlier states: how many places it has, and at each place that is taken what the
state is known by and its number. -/
structure Shared (α : Type) where
  size : Nat
  places : Std.HashMap Nat (α × Nat)

namespace Shared

variable {α : Type}

/-- A table with so many places. -/
def ofSize (size : Nat) : Shared α := ⟨size, ∅⟩

/-- One step of the sum that chooses a place. -/
def mix (sum : UInt64) (n : Nat) : UInt64 := (sum ^^^ n.toUInt64) * 1099511628211

/-- The place for a list of numbers. -/
def placeOf (table : Shared α) (numbers : List Nat) : Nat :=
  (numbers.foldl mix 14695981039346656037).toNat % table.size

/-- The number of the state that is known by a key, if it has kept its place. -/
def get? [BEq α] (table : Shared α) (place : Nat) (key : α) : Option Nat :=
  match table.places[place]? with
  | some (k, state) => if k == key then some state else none
  | none => none

/-- Gives a place to a state. -/
def insert (table : Shared α) (place : Nat) (key : α) (state : Nat) : Shared α :=
  { table with places := table.places.insert place (key, state) }

end Shared

/-! ## Sets of characters, read from the start -/

/-- What is built of a set: the memory so far and the states that can be shared. -/
structure Forward where
  memory : Memory
  shared : Shared (List Edge)

/-- A state whose edges are still being gathered, last to first; the target of the last one
is not known yet. -/
structure OpenState where
  edges : List Edge
  pending : Option ByteRange

/-- The edges of a state, last to first, once the target of the pending one is known. -/
def OpenState.closed (node : OpenState) (target : Nat) : List Edge :=
  match node.pending with
  | some range => ⟨range, target⟩ :: node.edges
  | none => node.edges

/-- The number of the state with these edges: an earlier one, or a new one. -/
def Forward.state (f : Forward) (edges : List Edge) : Option (Nat × Forward) :=
  let place :=
    f.shared.placeOf (edges.flatMap fun edge => [edge.range.1, edge.range.2, edge.target])
  match f.shared.get? place edges with
  | some n => some (n, f)
  | none => do
    let n := f.memory.states
    let memory ← f.memory.grow 1 (edgeBytes * edges.length)
    return (n, ⟨memory, f.shared.insert place edges n⟩)

/-- Builds the open states, each leading to the next and the last one to the end. -/
def Forward.close (f : Forward) (target : Nat) : List OpenState → Option (Nat × Forward)
  | [] => some (target, f)
  | node :: deeper => do
    let (next, f) ← f.close target deeper
    f.state (node.closed next).reverse

/-- Adds a sequence to the open states; what the last sequence does not share is closed. -/
def Forward.add (f : Forward) (target : Nat) :
    List ByteRange → List OpenState → Option (List OpenState × Forward)
  | range :: ranges, node :: deeper =>
    if node.pending = some range then do
      let (deeper, f) ← f.add target ranges deeper
      return (node :: deeper, f)
    else do
      let (next, f) ← f.close target deeper
      return (⟨node.closed next, some range⟩ :: ranges.map fun r => ⟨[], some r⟩, f)
  | _, nodes => some (nodes, f)

/-- Adds all sequences. -/
def Forward.addAll (target : Nat) :
    List (List ByteRange) → List OpenState → Forward → Option (List OpenState × Forward)
  | [], nodes, f => some (nodes, f)
  | ranges :: rest, nodes, f => do
    let (nodes, f) ← f.add target ranges nodes
    Forward.addAll target rest nodes f

/-- The memory after the states of a set. -/
def growForward (ranges : List (List ByteRange)) (m : Memory) : Option Memory := do
  let target := m.states
  let m ← m.grow 1 0
  let (nodes, f) ← Forward.addAll target ranges [⟨[], none⟩] ⟨m, Shared.ofSize 10000⟩
  let (_, f) ← f.close target nodes
  return f.memory

/-! ## Sets of characters, read from the end -/

/-- The memory after the state of an edge to a state, its number, and the states that can be
shared. -/
def addEdge (range : ByteRange) (target : Nat) (m : Memory) (shared : Shared Edge) :
    Option (Nat × Memory × Shared Edge) :=
  let edge : Edge := ⟨range, target⟩
  let place := shared.placeOf [target, range.1, range.2]
  match shared.get? place edge with
  | some n => some (n, m, shared)
  | none => do
    let n := m.states
    return (n, ← m.grow 1 0, shared.insert place edge n)

/-- Adds the states of a sequence, the ones read last first. -/
def addBackward : List ByteRange → Nat → Memory → Shared Edge → Option (Memory × Shared Edge)
  | [], _, m, shared => some (m, shared)
  | range :: rest, target, m, shared => do
    let (n, m, shared) ← addEdge range target m shared
    addBackward rest n m shared

/-- Adds the states of all sequences. -/
def addAllBackward (target : Nat) :
    List (List ByteRange) → Memory → Shared Edge → Option Memory
  | [], m, _ => some m
  | ranges :: rest, m, shared => do
    let (m, shared) ← addBackward ranges target m shared
    addAllBackward target rest (← m.grow 0 branchBytes) shared

/-- The memory after the states of a set. -/
def growBackward (ranges : List (List ByteRange)) (m : Memory) : Option Memory := do
  let target := m.states + 1
  addAllBackward target ranges (← m.grow 2 0) (Shared.ofSize 1000)

/-! ## Choices among literals -/

/-- Words that come one after the other, cut after each end of a word: the words between the
cuts without their ends, and the number of cuts. An end before all other words counts once. -/
def cutWords : Bool → List (List Nat) → List (List (List Nat)) × Nat
  | _, [] => ([[]], 0)
  | isStart, [] :: rest =>
    let (chunks, cuts) := cutWords isStart rest
    if isStart && rest.head? == some [] then (chunks, cuts) else ([] :: chunks, cuts + 1)
  | _, word :: rest =>
    match cutWords false rest with
    | (chunk :: chunks, cuts) => ((word :: chunk) :: chunks, cuts)
    | ([], cuts) => ([[word]], cuts)

/-- The first bytes of some words, each once. -/
def heads (words : List (List Nat)) : List Nat := (words.filterMap List.head?).eraseDups

/-- The states and the bytes of lists for a choice among words, where words share their
starts. -/
def wordStates : Nat → List (List Nat) → Nat × Nat
  | 0, _ => (0, 0)
  | fuel + 1, words =>
    if words.all List.isEmpty then (0, 0)
    else
      let (chunks, cuts) := cutWords true words
      let chunks := chunks.filter fun chunk => !chunk.isEmpty
      let own := chunks.map fun chunk =>
        let bytes := heads chunk
        let children := bytes.map fun b =>
          wordStates fuel ((chunk.filter fun word => word.head? == some b).map (·.drop 1))
        children.foldl (fun sum child => (sum.1 + child.1, sum.2 + child.2))
          (1, if bytes.length = 1 then 0 else edgeBytes * bytes.length)
      own.foldl (fun sum part => (sum.1 + part.1, sum.2 + part.2))
        (1, branchBytes * (chunks.length + cuts))

/-! ## Plans -/

/-- What has to be built for a pattern, read in one direction. -/
inductive Plan where
  /-- So many states and so many bytes of lists. -/
  | fixed (states lists : Nat)
  /-- A set of characters beyond ASCII. -/
  | set (ranges : List (List ByteRange))
  | times (item : Plan) (isNeverEmpty : Bool) (least : Nat) (most : Option Nat)
  | seq (items : List Plan)
  | choice (items : List Plan)

/-- The bytes of a literal. -/
def bytesOf (chars : List Char) : List Nat := chars.flatMap fun c => Text.Utf8.bytesOf c.toNat

/-- The bytes of patterns that all are literals. -/
def literals? : List Pattern → Option (List (List Nat))
  | [] => some []
  | .literal chars :: rest => (literals? rest).map (bytesOf chars :: ·)
  | _ :: _ => none

/-- The plan for a choice among words. -/
def Plan.ofWords (fromEnd : Bool) (words : List (List Nat)) : Plan :=
  let words := if fromEnd then words.map List.reverse else words
  let longest := words.foldl (fun n word => max n word.length) 0
  let (states, lists) := wordStates (longest + 1) words
  .fixed (states + 1) lists

mutual

/-- The plan for a pattern. -/
def Plan.ofPattern (fromEnd : Bool) : Pattern → Plan
  | .empty | .look _ => .fixed 1 0
  | .literal chars => .fixed (bytesOf chars).length 0
  | .set members =>
    if members.isAscii then .fixed 2 (edgeBytes * members.length) else .set (sequences members)
  | .times item least most => .times (ofPattern fromEnd item) item.isNeverEmpty least most
  | .group _ item =>
    if fromEnd then ofPattern fromEnd item
    else .seq [.fixed 1 0, ofPattern fromEnd item, .fixed 1 0]
  | .seq items =>
    let plans := Plan.ofPatterns fromEnd items
    .seq (if fromEnd then plans.reverse else plans)
  | .choice items =>
    match literals? items with
    | some words => Plan.ofWords fromEnd words
    | none => .choice (Plan.ofPatterns fromEnd items)

/-- The plans for some patterns. -/
def Plan.ofPatterns (fromEnd : Bool) : List Pattern → List Plan
  | [] => []
  | p :: rest => Plan.ofPattern fromEnd p :: Plan.ofPatterns fromEnd rest

end

/-- Does something so many times, as long as it succeeds. -/
def growTimes (step : Memory → Option Memory) : Nat → Memory → Option Memory
  | 0, m => some m
  | n + 1, m =>
    match step m with
    | some m => growTimes step n m
    | none => none

mutual

/-- The memory after the states of a plan; there is none where it does not suffice. -/
def Plan.grow (fromEnd : Bool) : Plan → Memory → Option Memory
  | .fixed states lists, m => m.grow states lists
  | .set ranges, m => if fromEnd then growBackward ranges m else growForward ranges m
  | .times item isNeverEmpty least most, m =>
    let item := grow fromEnd item
    match most with
    | some most =>
      if least = 0 && most = 1 then do (← item (← m.grow 1 (2 * branchBytes))).grow 1 0
      else if least = most then growTimes item least m
      else do
        let m ← if least = 0 then m.grow 1 0 else growTimes item least m
        growTimes (fun m => do item (← m.grow 1 (2 * branchBytes))) (most - least)
          (← m.grow 1 0)
    | none =>
      if least = 0 then do
        if isNeverEmpty then item (← m.grow 1 (2 * branchBytes))
        else (← item m).grow 3 (4 * branchBytes)
      else do (← growTimes item least m).grow 1 (2 * branchBytes)
  | .seq items, m => Plan.growAll fromEnd items m
  | .choice items, m =>
    match items with
    | first :: second :: rest => do
      let m ← grow fromEnd second (← grow fromEnd first m)
      let m ← m.grow 2 (branchBytes * items.length)
      Plan.growAll fromEnd rest m
    | items => Plan.growAll fromEnd items m

/-- The memory after the states of some plans, one after the other. -/
def Plan.growAll (fromEnd : Bool) : List Plan → Memory → Option Memory
  | [], m => some m
  | p :: rest, m => do Plan.growAll fromEnd rest (← Plan.grow fromEnd p m)

end

/-- Whether there is memory for the automaton of a pattern that reads texts in one direction.
Unless it stands at the end where reading starts, a match can be looked for at every place. -/
def fitsIn (fromEnd : Bool) (p : Pattern) : Bool :=
  let isAnchored := p.isBound fromEnd (if fromEnd then .textEnd else .textStart)
  let lead : Plan := if isAnchored then .fixed 1 0 else .fixed 3 (edgeBytes + 2 * branchBytes)
  let body := Plan.ofPattern fromEnd (if fromEnd then p else .group 0 p)
  (Plan.growAll fromEnd [lead, body, .fixed 1 0] ⟨0, 0⟩).isSome

/-- Whether a pattern is small enough to be searched for. -/
def Pattern.isSmall (p : Pattern) : Bool := fitsIn false p && fitsIn true p

end RdfStore.Regex
