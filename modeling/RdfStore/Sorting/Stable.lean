/-!
# Stable sorting

The stable sort of the standard library, which `sort_by` calls, as it is since version 1.81. Short
lists are sorted by insertion. Longer ones are cut into runs: stretches that are in order, or in
strictly descending order, are taken as they are if they are long enough; the others are sorted at
once in short lists, or are left for a stable quicksort. The runs are merged in pairs along a nearly
balanced tree.

A sort needs a comparison that orders the members of the list. Where it does not, a sort is free to
give any order, and it can stop the program: two halves of a short list are merged from both ends at
once, and if the two merges do not meet, the comparison has contradicted itself. A sort that stops
the program has no result here.
-/

set_option autoImplicit false

namespace RdfStore.Sorting

variable {α : Type}

section Short

/-! ## Short lists -/

variable (less : α → α → Bool)

/-- Puts a member behind the last one that it is not less than; the list is held from its back. -/
def insertFromBack (a : α) : List α → List α
  | [] => [a]
  | b :: rest => if less a b then b :: insertFromBack a rest else a :: b :: rest

/-- Puts the members of a list one by one into a sorted one. -/
def insertAll (sorted list : List α) : List α :=
  (list.foldl (fun back a => insertFromBack less a back) sorted.reverse).reverse

/-- Sorts by insertion. -/
def insertionSort (list : List α) : List α := insertAll less [] list

/-- Two members in order. -/
def sortTwo (a b : α) : α × α := if less b a then (b, a) else (a, b)

/-- Two pairs in order, merged with three comparisons. -/
def mergePairs (a b c d : α) : List α :=
  let first := if less c a then c else a
  let last := if less d b then b else d
  -- of the two in between it is known which one came first
  let left := if less c a then a else if less d b then c else b
  let right := if less d b then d else if less c a then b else c
  if less right left then [first, right, left, last] else [first, left, right, last]

/-- Four members in order. -/
def sortFour (a b c d : α) : List α :=
  let (a, b) := sortTwo less a b
  let (c, d) := sortTwo less c d
  mergePairs less a b c d

/-- One half of a short list in order; the first four members are sorted together if the whole list
has enough of them. -/
def sortHalf (byFour : Bool) : List α → List α
  | a :: b :: c :: d :: rest =>
    if byFour then insertAll less (sortFour less a b c d) rest
    else insertionSort less (a :: b :: c :: d :: rest)
  | list => insertionSort less list

/-- The first members of two lists that are merged, as many as asked for, and what is left of
both. -/
def takeMerged : Nat → List α → List α → List α × List α × List α
  | n + 1, a :: left, b :: right =>
    if less b a then
      let (front, rest) := takeMerged n (a :: left) right
      (b :: front, rest)
    else
      let (front, rest) := takeMerged n left (b :: right)
      (a :: front, rest)
  | _, left, right => ([], left, right)

/-- Merges the sorted halves of a list, of which the right one can be longer by one member, from both
ends at once: each end hands out as many members as the left half has, and what is between them in
either half stays there. If the ends have crossed in one of the halves, the comparison has
contradicted itself. -/
def mergeHalves? (left right : List α) : Option (List α) :=
  let (front, leftRest, rightRest) := takeMerged less left.length left right
  let (back, rightFront, leftFront) :=
    takeMerged (fun a b => less b a) left.length right.reverse left.reverse
  if left.length ≤ leftFront.length + leftRest.length ∧
      right.length ≤ rightFront.length + rightRest.length then
    let middle := leftRest.take (leftFront.length + leftRest.length - left.length) ++
      rightRest.take (rightFront.length + rightRest.length - right.length)
    some (front ++ middle ++ back.reverse)
  else none

/-- The longest list that is sorted as a short one. -/
def shortLength : Nat := 32

/-- Sorts a short list: its halves by insertion, which are then merged. -/
def sortShort? (list : List α) : Option (List α) :=
  if list.length < 2 then some list
  else
    let middle := list.length / 2
    let byFour := decide (8 ≤ list.length)
    mergeHalves? less (sortHalf less byFour (list.take middle))
      (sortHalf less byFour (list.drop middle))

/-- Merges two sorted lists, from the side of the shorter one. -/
def merge (left right : List α) : List α :=
  if left.length ≤ right.length then left.merge right fun a b => !less b a
  else (right.reverse.merge left.reverse fun b a => !less b a).reverse

end Short

section Quick

/-! ## Quicksort -/

/-- The place of the median among three places. -/
def medianOfThree (lessAt : Nat → Nat → Bool) (a b c : Nat) : Nat :=
  if lessAt a b = lessAt a c then if lessAt b c = lessAt a b then b else c else a

/-- The place of a median among three stretches of a list that start at the given places. -/
def medianOfStretches (lessAt : Nat → Nat → Bool) (a b c size : Nat) : Nat :=
  if size < 8 then medianOfThree lessAt a b c
  else
    let part := size / 8
    let within (start : Nat) : Nat :=
      medianOfStretches lessAt start (start + part * 4) (start + part * 7) part
    medianOfThree lessAt (within a) (within b) (within c)
termination_by size

variable (less : α → α → Bool)

/-- The place of the pivot of a list. -/
def pivotPlace (list : List α) : Nat :=
  let lessAt (i j : Nat) : Bool :=
    match list[i]?, list[j]? with
    | some a, some b => less a b
    | _, _ => false
  let part := list.length / 8
  if list.length < 64 then medianOfThree lessAt 0 (part * 4) (part * 7)
  else medianOfStretches lessAt 0 (part * 4) (part * 7) part

/-- Sorts a list around a pivot: the lesser members before the others, or, if none is less than it or
the pivot is not greater than the one to whose right the list stands, those that are not greater
before the greater ones. A list is given up to another sort after too many steps. -/
def quicksort? (giveUp : List α → Option (List α)) :
    Nat → Option α → List α → Option (List α)
  | 0, _, list => if list.length ≤ shortLength then sortShort? less list else giveUp list
  | steps + 1, ancestor, list =>
    if list.length ≤ shortLength then sortShort? less list
    else
      let place := pivotPlace less list
      match list.take place, list.drop place with
      | _, [] => giveUp list
      | front, pivot :: back =>
        let isLesser (a : α) : Bool := less a pivot
        let isGreater (a : α) : Bool := less pivot a
        let lesser := (front ++ back).filter isLesser
        if lesser.isEmpty || ancestor.any (fun a => !less a pivot) then
          let equal := front.filter (!isGreater ·) ++ pivot :: back.filter (!isGreater ·)
          let greater := (front ++ back).filter isGreater
          (quicksort? giveUp steps none greater).map (equal ++ ·)
        else
          let others := front.filter (!isLesser ·) ++ pivot :: back.filter (!isLesser ·)
          (quicksort? giveUp steps (some pivot) others).bind fun right =>
            (quicksort? giveUp steps ancestor lesser).map fun left => left ++ right

end Quick

section Runs

/-! ## Runs -/

/-- A stretch of the list, which is sorted or is still as it came. -/
structure Run (α : Type) where
  items : List α
  isSorted : Bool

variable (less : α → α → Bool)

/-- How many members go on as the first two of a list do, that is descend or do not. -/
def countOn (descends : Bool) : α → List α → Nat
  | _, [] => 0
  | a, b :: rest => if less b a = descends then countOn descends b rest + 1 else 0

/-- The members at the start of a list that are in order, or that are when they are turned round. -/
def firstRun : List α → List α
  | a :: b :: rest =>
    let descends := less b a
    let run := (a :: b :: rest).take (countOn less descends a (b :: rest) + 1)
    if descends then run.reverse else run
  | list => list

/-- The run at the start of a list. A run that is not long enough is replaced by a longer one, which
is sorted at once if this is asked for. -/
def nextRun? (enough : Nat) (atOnce : Bool) (list : List α) : Option (Run α) :=
  let run := firstRun less list
  if enough ≤ run.length then some ⟨run, true⟩
  else if atOnce then (sortShort? less (list.take shortLength)).map fun items => ⟨items, true⟩
  else some ⟨list.take enough, false⟩

/-- The runs of a list, at most so many. -/
def runs? (enough : Nat) (atOnce : Bool) : Nat → List α → Option (List (Run α))
  | count + 1, a :: rest =>
    (nextRun? less enough atOnce (a :: rest)).bind fun run =>
      (runs? enough atOnce count ((a :: rest).drop run.items.length)).map fun runs => run :: runs
  | _, _ => some []

variable (finish : List α → Option (List α))

/-- The members of a run in order. -/
def Run.sort? (run : Run α) : Option (List α) :=
  if run.isSorted then some run.items else finish run.items

/-- Joins two runs. If both are as they came, and fit in the memory that a quicksort needs, they stay
so. -/
def joinRuns? (room : Nat) (left right : Run α) : Option (Run α) :=
  if left.isSorted || right.isSorted || room < left.items.length + right.items.length then
    (left.sort? finish).bind fun l => (right.sort? finish).map fun r => ⟨merge less l r, true⟩
  else some ⟨left.items ++ right.items, false⟩

/-- Joins a run with those on top of a stack that are to be joined at such a depth of the tree, or
deeper. -/
def joinDeeper? (room depth : Nat) :
    List (Run α × Nat) → Run α → Option (List (Run α × Nat) × Run α)
  | (left, own) :: stack, run =>
    if depth ≤ own then (joinRuns? less finish room left run).bind (joinDeeper? room depth stack)
    else some ((left, own) :: stack, run)
  | [], run => some ([], run)

/-- How deep in the tree two neighbours are joined that start at `left` and `middle`, of which the
second ends at `right`: the number of leading zeros among 64 bits where the scaled middles of both
differ. -/
def joinDepth (scale left middle right : Nat) : Nat :=
  let difference := scale * (left + middle) ^^^ scale * (middle + right)
  if difference = 0 then 64 else 63 - difference.log2

/-- The runs that wait to be joined, the one before the next one, and where that starts. -/
structure Joining (α : Type) where
  stack : List (Run α × Nat)
  last : Run α
  place : Nat

/-- Goes on to the next run. -/
def Joining.push? (room scale : Nat) (j : Joining α) (next : Run α) : Option (Joining α) :=
  let stop := j.place + next.items.length
  let depth := joinDepth scale (j.place - j.last.items.length) j.place stop
  (joinDeeper? less finish room depth j.stack j.last).map fun (stack, run) =>
    ⟨(run, depth) :: stack, next, stop⟩

/-- Joins all runs. -/
def joinAll? (room scale : Nat) : List (Run α) → Option (List α)
  | [] => some []
  | first :: rest =>
    (rest.foldlM (Joining.push? less finish room scale) ⟨[], first, first.items.length⟩).bind
      fun j => (joinDeeper? less finish room 0 j.stack j.last).bind fun (_, run) =>
        run.sort? finish

/-- How long a run has to be to be taken as it is: half of a short list, else 64 members, and about
the square root of a long list. -/
def enoughFor (size : Nat) : Nat :=
  if size ≤ 4096 then min (size - size / 2) 64
  else
    let shift := (1 + size.log2) / 2
    ((1 <<< shift) + (size >>> shift)) / 2

/-- Sorts a list by its runs. -/
def sortRuns? (atOnce : Bool) (list : List α) : Option (List α) :=
  let size := list.length
  -- the memory for a quicksort is bounded by eight million bytes, at 48 for a row with its keys
  let room := max (size - size / 2) (8000000 / 48)
  let scale := ((1 <<< 62) + size - 1) / size
  (runs? less (enoughFor size) atOnce size list).bind (joinAll? less finish room scale)

end Runs

/-! ## Sorting -/

/-- Whether a member stands before another by a comparison. -/
def lessBy (compare : α → α → Ordering) (a b : α) : Bool := compare a b == .lt

/-- Sorts a list that is left as it came, giving up after too many steps. -/
def quicksortAll? (less : α → α → Bool) (list : List α) : Option (List α) :=
  -- where all runs are sorted at once, none is left to be finished
  quicksort? less (sortRuns? less (sortShort? less) true) (2 * list.length.log2) none list

/-- Sorts a list by a comparison: members that are equal keep their order. There is no result if the
comparison contradicts itself and the sort finds out, which stops the program. -/
def stableSort? (compare : α → α → Ordering) (list : List α) : Option (List α) :=
  let less := lessBy compare
  if list.length ≤ 20 then some (insertionSort less list)
  else sortRuns? less (quicksortAll? less) (list.length ≤ 2 * shortLength) list

end RdfStore.Sorting
