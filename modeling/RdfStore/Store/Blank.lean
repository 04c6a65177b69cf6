import RdfStore.Store.Basic
import RdfStore.Turtle.Reader

/-!
# Blank nodes of a store

`freshBlank` names a blank node that the store does not hold: `t`, the tick of the clock
in hexadecimal digits, `n`, and the number of the attempt. `insertScoped` gives every
blank node of a batch a fresh name, so two batches never share one.
-/

set_option autoImplicit false

namespace RdfStore.Store

/-- The label of an attempt. -/
def freshLabel (tick counter : Nat) : String :=
  "t" ++ String.ofList (Nat.toDigits 16 tick) ++ "n" ++ toString counter

/-- Tries names until one is free, at most `fuel + 1` of them. -/
def freshBlankWithin : Nat → Store → BlankNode × Store
  | fuel, s =>
    let (tick, s) := s.now
    let node : BlankNode := ⟨freshLabel tick s.blankCounter⟩
    let s := { s with blankCounter := s.blankCounter + 1 }
    match fuel with
    | 0 => (node, s)
    | fuel + 1 => if s.containsTerm (.blank node) then freshBlankWithin fuel s else (node, s)

/-- A blank node that the store does not hold. One of `termCount + 1` names is free. -/
def freshBlank (s : Store) : BlankNode × Store := freshBlankWithin s.termCount s

/-- The new names of the blank nodes of a batch. -/
abbrev Renaming := List (BlankNode × BlankNode)

/-- The new name of a blank node, which is a fresh one when it turns up first. -/
def rename (s : Store) (names : Renaming) (node : BlankNode) : BlankNode × Renaming × Store :=
  match names.lookup node with
  | some new => (new, names, s)
  | none =>
    let (new, s) := s.freshBlank
    (new, (node, new) :: names, s)

/-- A subject with its blank node renamed. -/
def renameSubject (s : Store) (names : Renaming) : Subject → Subject × Renaming × Store
  | .iri node => (.iri node, names, s)
  | .blank node =>
    let (new, names, s) := s.rename names node
    (.blank new, names, s)

/-- A term with its blank node renamed. -/
def renameTerm (s : Store) (names : Renaming) : Term → Term × Renaming × Store
  | .blank node =>
    let (new, names, s) := s.rename names node
    (.blank new, names, s)
  | term => (term, names, s)

/-- Adds triples under new names, which are extended on the way. -/
def insertRenamed (s : Store) (names : Renaming) : List Triple → Nat × Store
  | [] => (0, s)
  | t :: rest =>
    let (subject, names, s) := s.renameSubject names t.subject
    let (object, names, s) := s.renameTerm names t.object
    let (isNew, s) := s.add ⟨subject, t.predicate, object⟩
    let (added, s) := s.insertRenamed names rest
    (if isNew then added + 1 else added, s)

/-- Adds a batch whose blank nodes belong to it alone, and tells how many triples are new. -/
def insertScoped (s : Store) (triples : List Triple) : Nat × Store := s.insertRenamed [] triples

/-- Reads a Turtle document and adds its triples as one batch, all or none. -/
def load (s : Store) (text : String) (base : Option String) :
    Except Turtle.Error (Nat × Store) := do
  let triples ← Turtle.read text base
  return s.insertScoped triples

end RdfStore.Store
