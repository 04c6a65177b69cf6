import Std.Data.HashMap
import Std.Data.TreeSet
import RdfStore.Term.Basic

/-!
# The dictionary and the indexes

Every term of a store has a number. Numbers are given in the order in which terms are
first met, so the terms of a dictionary and the numbers below its size correspond.

A store keeps its triples, written as numbers, in three orders. Any choice of bound
positions is the start of the keys of one of them, so a lookup reads one contiguous
range of one index.
-/

set_option autoImplicit false

namespace RdfStore

/-! ## The dictionary -/

/-- Terms and their numbers. -/
structure Dictionary where
  ids : Std.HashMap Term Nat
  terms : Array Term

namespace Dictionary

/-- No term has a number. -/
def empty : Dictionary := ⟨{}, #[]⟩

/-- How many terms have a number. -/
def size (d : Dictionary) : Nat := d.terms.size

/-- The number of a term. -/
def id? (d : Dictionary) (t : Term) : Option Nat := d.ids[t]?

/-- The term with a number. -/
def term? (d : Dictionary) (id : Nat) : Option Term := d.terms[id]?

/-- The number of a term, which is the next free one if the term is new. -/
def intern (d : Dictionary) (t : Term) : Nat × Dictionary :=
  match d.id? t with
  | some id => (id, d)
  | none => (d.terms.size, ⟨d.ids.insert t d.terms.size, d.terms.push t⟩)

end Dictionary

/-! ## Indexes -/

/-- Three numbers: a triple, or a key of an index. -/
abbrev Key := Nat × Nat × Nat

/-- The lexicographic order of keys. -/
def Key.order : Key → Key → Ordering :=
  compareLex (compareOn fun k => k.1)
    (compareLex (compareOn fun k => k.2.1) (compareOn fun k => k.2.2))

/-- The three orders in which triples are kept. -/
inductive IndexOrder where
  /-- Subject, predicate, object. -/
  | spo
  /-- Predicate, object, subject. -/
  | pos
  /-- Object, subject, predicate. -/
  | osp
deriving DecidableEq

namespace IndexOrder

/-- The key of a triple. -/
def key : IndexOrder → Key → Key
  | .spo, (s, p, o) => (s, p, o)
  | .pos, (s, p, o) => (p, o, s)
  | .osp, (s, p, o) => (o, s, p)

/-- The triple of a key. -/
def triple : IndexOrder → Key → Key
  | .spo, (a, b, c) => (a, b, c)
  | .pos, (a, b, c) => (c, a, b)
  | .osp, (a, b, c) => (b, c, a)

/-- The index whose keys start with the bound positions, and these in its order. -/
def select : Option Nat → Option Nat → Option Nat → IndexOrder × List Nat
  | none, none, none => (.spo, [])
  | some s, none, none => (.spo, [s])
  | none, some p, none => (.pos, [p])
  | none, none, some o => (.osp, [o])
  | some s, some p, none => (.spo, [s, p])
  | none, some p, some o => (.pos, [p, o])
  | some s, none, some o => (.osp, [o, s])
  | some s, some p, some o => (.spo, [s, p, o])

/-- The index that a lookup with these bound positions reads. -/
def forBound (subject predicate object : Bool) : IndexOrder :=
  let bound := fun b : Bool => if b then some 0 else none
  (select (bound subject) (bound predicate) (bound object)).1

end IndexOrder

/-- Keys in order. -/
abbrev Index := Std.TreeSet Key Key.order

namespace Index

/-- The start of a key, filled up with the same number. -/
def fill (start : List Nat) (n : Nat) : Key :=
  (start[0]?.getD n, start[1]?.getD n, start[2]?.getD n)

/-- The keys with a given start, in order; every number in them is at most `top`. -/
def withStart (index : Index) (start : List Nat) (top : Nat) : List Key :=
  index[(fill start 0)...=(fill start top)].toList

/-- The distinct first numbers of keys, in order. -/
def leading : List Key → List Nat
  | [] => []
  | [k] => [k.1]
  | k :: l :: rest => if k.1 = l.1 then leading (l :: rest) else k.1 :: leading (l :: rest)

end Index

end RdfStore
