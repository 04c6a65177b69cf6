import RdfStore.Store.Index

/-!
# The store

A set of triples. The terms are numbered by a dictionary and the triples are kept in
three indexes; a lookup with any positions given reads a range of one of them. Fresh
blank nodes are named after the ticks of the store's clock.
-/

set_option autoImplicit false

/-!
## Clocks

A clock counts ticks from a start by a fixed step. It stops at the last tick of 64 bits
instead of starting over, so no reading is smaller than an earlier one.
-/

namespace RdfStore

/-- The last tick, `2 ^ 64 - 1`. -/
def Clock.lastTick : Nat := 18446744073709551615

/-- A clock: the tick it shows next and its step. -/
structure Clock where
  next : Nat
  step : Nat
deriving DecidableEq

namespace Clock

/-- The clock after one reading. -/
def advance (c : Clock) : Clock := { c with next := min (c.next + c.step) lastTick }

/-- The first readings of a clock. -/
def readings (c : Clock) : Nat → List Nat
  | 0 => []
  | n + 1 => c.next :: c.advance.readings n

end Clock

end RdfStore

namespace RdfStore

/-- A store of triples. -/
structure Store where
  dictionary : Dictionary
  spo : Index
  pos : Index
  osp : Index
  clock : Clock
  /-- How many names for fresh blank nodes were tried. -/
  blankCounter : Nat

namespace Store

/-- A store without triples. -/
def empty (clock : Clock) : Store := ⟨.empty, ∅, ∅, ∅, clock, 0⟩

/-- How many triples the store holds. -/
def count (s : Store) : Nat := s.spo.size

def isEmpty (s : Store) : Bool := s.spo.isEmpty

/-- How many terms have a number. -/
def termCount (s : Store) : Nat := s.dictionary.size

/-- Whether the store knows a term. -/
def containsTerm (s : Store) (t : Term) : Bool := (s.dictionary.id? t).isSome

/-- Reads the clock. -/
def now (s : Store) : Nat × Store := (s.clock.next, { s with clock := s.clock.advance })

/-- Adds a triple and tells whether it is new. -/
def add : Store → Triple → Bool × Store
  | ⟨d, spo, pos, osp, clock, blankCounter⟩, t =>
    let (subject, d) := d.intern t.subject.toTerm
    let (predicate, d) := d.intern (.iri t.predicate)
    let (object, d) := d.intern t.object
    let key : Key := (subject, predicate, object)
    if spo.contains key then (false, ⟨d, spo, pos, osp, clock, blankCounter⟩)
    else
      (true, ⟨d, spo.insert key, pos.insert (IndexOrder.pos.key key),
        osp.insert (IndexOrder.osp.key key), clock, blankCounter⟩)

/-- Adds triples and tells how many are new. -/
def extend (s : Store) : List Triple → Nat × Store
  | [] => (0, s)
  | t :: rest =>
    let (isNew, s) := s.add t
    let (added, s) := s.extend rest
    (if isNew then added + 1 else added, s)

/-- Removes all triples; the clock and the names already tried are kept. -/
def clear (s : Store) : Store := { s with dictionary := .empty, spo := ∅, pos := ∅, osp := ∅ }

/-- Whether the store holds a triple. -/
def contains (s : Store) (t : Triple) : Bool :=
  match s.dictionary.id? t.subject.toTerm, s.dictionary.id? (.iri t.predicate),
      s.dictionary.id? t.object with
  | some subject, some predicate, some object => s.spo.contains (subject, predicate, object)
  | _, _, _ => false

/-! ## Lookup -/

/-- Three terms that form a triple. -/
structure TermTriple where
  subject : Term
  predicate : Term
  object : Term
deriving DecidableEq

/-- The terms of a triple as terms of equal standing. -/
def TermTriple.ofTriple (t : Triple) : TermTriple := ⟨t.subject.toTerm, .iri t.predicate, t.object⟩

/-- The index of an order. -/
def index (s : Store) : IndexOrder → Index
  | .spo => s.spo
  | .pos => s.pos
  | .osp => s.osp

/-- The number of a term if it is given: `none` when the store does not know it. -/
def resolve? (s : Store) : Option Term → Option (Option Nat)
  | none => some none
  | some t => (s.dictionary.id? t).map some

/-- The terms behind the numbers of a triple. -/
def termsOf? (s : Store) (triple : Key) : Option TermTriple :=
  match s.dictionary.term? triple.1, s.dictionary.term? triple.2.1,
      s.dictionary.term? triple.2.2 with
  | some subject, some predicate, some object => some ⟨subject, predicate, object⟩
  | _, _, _ => none

/-- The stored triples that agree with the given terms, in the order of the index that the
lookup reads. A term that cannot stand at its position agrees with nothing. -/
def matching (s : Store) (subject predicate object : Option Term) : List TermTriple :=
  match s.resolve? subject, s.resolve? predicate, s.resolve? object with
  | some sub, some pred, some obj =>
    let (order, start) := IndexOrder.select sub pred obj
    ((s.index order).withStart start s.dictionary.size).filterMap fun key =>
      s.termsOf? (order.triple key)
  | _, _, _ => []

/-- The stored triples that agree with a query. -/
def find (s : Store) (q : TripleQuery) : List Triple :=
  (s.matching (q.subject.map Subject.toTerm) (q.predicate.map Term.iri) q.object).filterMap
    fun t => Triple.ofTerms? t.subject t.predicate t.object

/-- All triples, in the order of their subjects' numbers. -/
def toList (s : Store) : List Triple := s.find ⟨none, none, none⟩

/-- The terms that lead the keys of an index. -/
def leadingTerms (s : Store) (order : IndexOrder) : List Term :=
  (Index.leading (s.index order).toList).filterMap s.dictionary.term?

/-- The distinct subjects. -/
def subjects (s : Store) : List Subject := (s.leadingTerms .spo).filterMap Term.toSubject?

/-- The distinct predicates. -/
def predicates (s : Store) : List Iri := (s.leadingTerms .pos).filterMap Term.toIri?

/-- The distinct objects. -/
def objects (s : Store) : List Term := s.leadingTerms .osp

end Store

end RdfStore
