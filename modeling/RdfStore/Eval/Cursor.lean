/-!
# Cursors

A cursor hands out its rows one by one. It holds a state that every pull changes, can be
reset at any time, and says which rows remain in each state; the rows that remain are
there for reasoning and as the measure by which draining ends. The combinators build the
cursors of query plans: rows replaced by several rows, rows sorted or otherwise taken as a
whole, repetitions dropped, and slices.
-/

set_option autoImplicit false

/-!
## Rows

Rows in order, and how they end: after the last one there is nothing more, or an error.
This is what a cursor still has to hand out, and what a group means. `flatMap` replaces
every row by several, up to the first error.
-/

namespace RdfStore.Eval

/-- Rows in order and their end. -/
inductive Rows (ε α : Type) where
  /-- There are no more rows. -/
  | done
  /-- Asking for another row is an error. -/
  | failed (e : ε)
  | row (a : α) (rest : Rows ε α)

namespace Rows

variable {ε α β : Type}

/-- The rows of a list. -/
def ofList : List α → Rows ε α
  | [] => done
  | a :: rest => row a (ofList rest)

/-- The rows of a list, or an error instead of them. -/
def ofExcept : Except ε (List α) → Rows ε α
  | .ok list => ofList list
  | .error e => failed e

/-- How many rows there are. -/
def length : Rows ε α → Nat
  | done | failed _ => 0
  | row _ rest => rest.length + 1

/-- The first row, if there is one, and what comes after it. -/
def next : Rows ε α → Except ε (Option α × Rows ε α)
  | done => .ok (none, done)
  | failed e => .error e
  | row a rest => .ok (some a, rest)

/-- All rows, unless they end in an error. -/
def toExcept : Rows ε α → Except ε (List α)
  | done => .ok []
  | failed e => .error e
  | row a rest => rest.toExcept.map (a :: ·)

/-- Whether there is a row. -/
def isInhabited (r : Rows ε α) : Except ε Bool := r.next.map fun p => p.1.isSome

/-- Rows with others before them. -/
def prepend : List α → Rows ε α → Rows ε α
  | [], r => r
  | a :: front, r => row a (prepend front r)

/-- Every row replaced by rows, up to the first error. -/
def flatMap (f : α → Except ε (List β)) : Rows ε α → Rows ε β
  | done => done
  | failed e => failed e
  | row a rest =>
    match f a with
    | .ok rows => prepend rows (flatMap f rest)
    | .error e => failed e

/-- Every row replaced by another. -/
def map (f : α → β) (r : Rows ε α) : Rows ε β := r.flatMap fun a => .ok [f a]

/-- The rows that satisfy a condition. -/
def filter (p : α → Bool) (r : Rows ε α) : Rows ε α :=
  r.flatMap fun a => .ok (if p a then [a] else [])

/-- The rows without the first ones. -/
def drop : Nat → Rows ε α → Rows ε α
  | n + 1, row _ rest => drop n rest
  | _, r => r

/-- The first rows; the end of all rows is reached only if there are too few of them. -/
def take : Nat → Rows ε α → Rows ε α
  | 0, _ => done
  | n + 1, row a rest => row a (take n rest)
  | _ + 1, done => done
  | _ + 1, failed e => failed e

/-- The rows that are not among those seen, each once. -/
def unseen [DecidableEq α] (seen : List α) : Rows ε α → Rows ε α
  | done => done
  | failed e => failed e
  | row a rest => if a ∈ seen then unseen seen rest else row a (unseen (a :: seen) rest)

/-- The rows of a list end without an error. -/
@[simp]
theorem toExcept_ofList (list : List α) : (ofList list : Rows ε α).toExcept = .ok list := by
  induction list with
  | nil => rfl
  | cons a rest ih => rw [ofList, toExcept, ih]; rfl

end Rows

end RdfStore.Eval

namespace RdfStore.Eval

/-- A source of rows whose pulls can fail. -/
structure Cursor (ε α : Type) where
  State : Type
  start : State
  /-- The next row, if there is one, and the state after the pull. -/
  next : State → Except ε (Option α × State)
  /-- Goes back to the first row. -/
  reset : State → State
  /-- The rows still to come. -/
  remaining : State → Rows ε α
  next_eq : ∀ s, (next s).map (fun p => (p.1, remaining p.2)) = (remaining s).next
  remaining_reset : ∀ s, remaining (reset s) = remaining start

namespace Cursor

variable {ε α β τ : Type}

/-- All rows. -/
def rows (c : Cursor ε α) : Rows ε α := c.remaining c.start

/-- A pull that fails is what remains. -/
theorem remaining_of_error {c : Cursor ε α} {s : c.State} {e : ε} (h : c.next s = .error e) :
    c.remaining s = .failed e := by
  have hs := c.next_eq s
  rw [h] at hs
  cases hr : c.remaining s <;> rw [hr] at hs <;> cases hs
  rfl

/-- When a pull gives no row, none remains, and none will. -/
theorem remaining_of_none {c : Cursor ε α} {s t : c.State} (h : c.next s = .ok (none, t)) :
    c.remaining s = .done ∧ c.remaining t = .done := by
  have hs := c.next_eq s
  rw [h] at hs
  cases hr : c.remaining s <;> rw [hr] at hs <;>
    simp only [Except.map, Rows.next, Except.ok.injEq, Prod.mk.injEq, reduceCtorEq,
      false_and, true_and] at hs
  exact ⟨rfl, hs⟩

/-- A row that a pull gives is the first that remains. -/
theorem remaining_of_some {c : Cursor ε α} {s t : c.State} {a : α}
    (h : c.next s = .ok (some a, t)) : c.remaining s = .row a (c.remaining t) := by
  have hs := c.next_eq s
  rw [h] at hs
  cases hr : c.remaining s <;> rw [hr] at hs <;>
    simp only [Except.map, Rows.next, Except.ok.injEq, Prod.mk.injEq, reduceCtorEq,
      false_and, Option.some.injEq] at hs
  rw [hs.1, hs.2]

/-- Every row that is pulled leaves fewer of them. -/
theorem length_remaining {c : Cursor ε α} {s t : c.State} {a : α}
    (h : c.next s = .ok (some a, t)) : (c.remaining t).length < (c.remaining s).length := by
  rw [remaining_of_some h]
  exact Nat.lt_succ_self _

/-! ## Reading -/

/-- Pulls every row that remains. -/
def drain (c : Cursor ε α) (s : c.State) : Except ε (List α × c.State) :=
  match _h : c.next s with
  | .error e => .error e
  | .ok (none, t) => .ok ([], t)
  | .ok (some a, t) => (drain c t).map fun p => (a :: p.1, p.2)
termination_by (c.remaining s).length
decreasing_by exact length_remaining _h

/-- Pulls at most so many rows; it stops when there is none. -/
def pull (c : Cursor ε α) : Nat → c.State → Except ε (List α × c.State)
  | 0, s => .ok ([], s)
  | n + 1, s =>
    match c.next s with
    | .error e => .error e
    | .ok (none, t) => .ok ([], t)
    | .ok (some a, t) => (pull c n t).map fun p => (a :: p.1, p.2)

/-- All rows, pulled one by one. -/
def toList (c : Cursor ε α) : Except ε (List α) := (c.drain c.start).map Prod.fst

/-- Whether there is a row. -/
def isInhabited (c : Cursor ε α) : Except ε Bool := (c.next c.start).map fun p => p.1.isSome

/-- Draining gives the rows that remain. -/
theorem drain_rows (c : Cursor ε α) (s : c.State) :
    (c.drain s).map Prod.fst = (c.remaining s).toExcept := by
  fun_induction drain c s with
  | case1 s e h => rw [remaining_of_error h]; rfl
  | case2 s t h => rw [(remaining_of_none h).1]; rfl
  | case3 s a t h ih =>
    rw [remaining_of_some h, Rows.toExcept, ← ih]
    cases c.drain t <;> rfl

/-- The list of a cursor has its rows. -/
theorem toList_eq_rows (c : Cursor ε α) : c.toList = c.rows.toExcept := c.drain_rows c.start

/-- A cursor gives a row when it has one. -/
theorem isInhabited_eq_rows (c : Cursor ε α) : c.isInhabited = c.rows.isInhabited := by
  unfold isInhabited Rows.isInhabited rows
  rw [← c.next_eq]
  cases c.next c.start <;> rfl

/-! ## Sources -/

/-- A cursor over a list. -/
def ofList (list : List α) : Cursor ε α where
  State := List α
  start := list
  next s := .ok (s.head?, s.tail)
  reset _ := list
  remaining s := .ofList s
  next_eq s := by cases s <;> rfl
  remaining_reset _ := rfl

/-! ## Rows for rows -/

/-- Pulls until a row has replacements. -/
def refill (c : Cursor ε α) (f : α → Except ε (List β)) (s : c.State) :
    Except ε (List β × c.State) :=
  match _h : c.next s with
  | .error e => .error e
  | .ok (none, t) => .ok ([], t)
  | .ok (some a, t) =>
    match f a with
    | .error e => .error e
    | .ok [] => refill c f t
    | .ok (b :: bs) => .ok (b :: bs, t)
termination_by (c.remaining s).length
decreasing_by exact length_remaining _h

/-- The next replacement: the first of those that wait, or of those of the next row that
has any. -/
def nextReplaced (c : Cursor ε α) (f : α → Except ε (List β)) :
    List β × c.State → Except ε (Option β × List β × c.State)
  | (b :: waiting, s) => .ok (some b, waiting, s)
  | ([], s) => (refill c f s).map fun p => (p.1.head?, p.1.tail, p.2)

/-- The replacements still to come. -/
def replaced (c : Cursor ε α) (f : α → Except ε (List β)) (s : List β × c.State) : Rows ε β :=
  .prepend s.1 ((c.remaining s.2).flatMap f)

/-- Pulling until a row has replacements goes on with the replacements that remain. -/
theorem refill_replaced (c : Cursor ε α) (f : α → Except ε (List β)) (s : c.State) :
    (refill c f s).map (fun p => (p.1.head?, replaced c f (p.1.tail, p.2))) =
      ((c.remaining s).flatMap f).next := by
  fun_induction refill c f s with
  | case1 s e h => rw [remaining_of_error h]; rfl
  | case2 s t h =>
    simp only [Except.map, replaced, (remaining_of_none h).1, (remaining_of_none h).2]
    rfl
  | case3 s a t h e hf => simp only [remaining_of_some h, Rows.flatMap, hf]; rfl
  | case4 s a t h hf ih => rw [ih]; simp only [remaining_of_some h, Rows.flatMap, hf]; rfl
  | case5 s a t h b bs hf => simp only [remaining_of_some h, Rows.flatMap, hf]; rfl

/-- Taking the next replacement leaves the others. -/
theorem nextReplaced_eq (c : Cursor ε α) (f : α → Except ε (List β)) (s : List β × c.State) :
    (nextReplaced c f s).map (fun p => (p.1, replaced c f p.2)) = (replaced c f s).next := by
  obtain ⟨waiting, s⟩ := s
  cases waiting with
  | cons b waiting => rfl
  | nil =>
    refine Eq.trans ?_ (refill_replaced c f s)
    simp only [nextReplaced]
    cases refill c f s <;> rfl

/-- Replaces every row by a list of rows, which wait in a buffer. -/
def flatMap (c : Cursor ε α) (f : α → Except ε (List β)) : Cursor ε β where
  State := List β × c.State
  start := ([], c.start)
  next := nextReplaced c f
  reset s := ([], c.reset s.2)
  remaining := replaced c f
  next_eq := nextReplaced_eq c f
  remaining_reset s := by simp only [replaced, c.remaining_reset]

/-- Keeps the rows that satisfy a condition. -/
def filter (c : Cursor ε α) (p : α → Bool) : Cursor ε α :=
  c.flatMap fun a => .ok (if p a then [a] else [])

/-- Replaces every row by another. -/
def map (c : Cursor ε α) (f : α → β) : Cursor ε β := c.flatMap fun a => .ok [f a]

/-! ## Rows for rows and a table -/

/-- The table that was kept, or else a newly loaded one. -/
def keptOr (load : Unit → Except ε τ) : Option τ → Except ε τ
  | some table => .ok table
  | none => load ()

/-- Replaces every row by the rows that a table gives for it. The table is loaded at the
first pull, before any row, and kept until the next reset. -/
def flatMapTable (c : Cursor ε α) (load : Unit → Except ε τ) (f : τ → α → List β) :
    Cursor ε β where
  State := Option τ × List β × c.State
  start := (none, [], c.start)
  next s := (keptOr load s.1).bind fun table =>
    (nextReplaced c (fun a => .ok (f table a)) s.2).map fun p => (p.1, some table, p.2)
  reset s := (none, [], c.reset s.2.2)
  remaining s :=
    match keptOr load s.1 with
    | .error e => .failed e
    | .ok table => replaced c (fun a => .ok (f table a)) s.2
  next_eq := by
    rintro ⟨kept, s⟩
    dsimp only
    cases keptOr load kept with
    | error e => rfl
    | ok table =>
      refine Eq.trans ?_ (nextReplaced_eq c (fun a => .ok (f table a)) s)
      dsimp only [Except.bind]
      cases nextReplaced c (fun a => .ok (f table a)) s <;> rfl
  remaining_reset s := by simp only [replaced, c.remaining_reset]

/-! ## Rows as a whole -/

/-- Pulls all rows at the first pull and hands out what a function makes of them. -/
def whole (c : Cursor ε α) (f : List α → List β) : Cursor ε β where
  State := Option (List β) × c.State
  start := (none, c.start)
  next s :=
    match s.1 with
    | some ready => .ok (ready.head?, some ready.tail, s.2)
    | none => (c.drain s.2).map fun p => ((f p.1).head?, some (f p.1).tail, p.2)
  reset s := (none, c.reset s.2)
  remaining s :=
    match s.1 with
    | some ready => .ofList ready
    | none => .ofExcept ((c.remaining s.2).toExcept.map f)
  next_eq := by
    rintro ⟨ready, s⟩
    cases ready with
    | some ready => cases ready <;> rfl
    | none =>
      simp only
      rw [← drain_rows]
      cases c.drain s with
      | error e => rfl
      | ok p =>
        simp only [Except.map, Rows.ofExcept]
        cases f p.1 <;> rfl
  remaining_reset s := by simp only [c.remaining_reset]

/-! ## Repetitions -/

section Distinct

variable [DecidableEq α]

/-- Pulls until a row is new. -/
def nextUnseen (c : Cursor ε α) (seen : List α) (s : c.State) :
    Except ε (Option α × c.State) :=
  match _h : c.next s with
  | .error e => .error e
  | .ok (none, t) => .ok (none, t)
  | .ok (some a, t) => if a ∈ seen then nextUnseen c seen t else .ok (some a, t)
termination_by (c.remaining s).length
decreasing_by exact length_remaining _h

/-- Pulling until a row is new gives the first that is not among those seen. -/
theorem nextUnseen_eq (c : Cursor ε α) (seen : List α) (s : c.State) :
    (nextUnseen c seen s).map
      (fun p => (p.1, (c.remaining p.2).unseen (p.1.toList ++ seen))) =
      ((c.remaining s).unseen seen).next := by
  fun_induction nextUnseen c seen s with
  | case1 s e h => rw [remaining_of_error h]; rfl
  | case2 s t h =>
    simp only [Except.map, (remaining_of_none h).1, (remaining_of_none h).2]
    rfl
  | case3 s a t h hm ih => rw [ih, remaining_of_some h, Rows.unseen, if_pos hm]
  | case4 s a t h hm => rw [remaining_of_some h, Rows.unseen, if_neg hm]; rfl

/-- Drops every row that was handed out before. -/
def distinct (c : Cursor ε α) : Cursor ε α where
  State := List α × c.State
  start := ([], c.start)
  next s := (nextUnseen c s.1 s.2).map fun p => (p.1, p.1.toList ++ s.1, p.2)
  reset s := ([], c.reset s.2)
  remaining s := (c.remaining s.2).unseen s.1
  next_eq := by
    rintro ⟨seen, s⟩
    refine Eq.trans ?_ (nextUnseen_eq c seen s)
    dsimp only
    cases nextUnseen c seen s <;> rfl
  remaining_reset s := by simp only [c.remaining_reset]

end Distinct

/-! ## Slices -/

/-- Pulls so many rows and drops them, then pulls the next one. The number that is still to
be dropped is given back with the row. -/
def nextAfter (c : Cursor ε α) : Nat → c.State → Except ε (Option α × Nat × c.State)
  | 0, s => (c.next s).map fun p => (p.1, 0, p.2)
  | n + 1, s =>
    match c.next s with
    | .error e => .error e
    | .ok (none, t) => .ok (none, n + 1, t)
    | .ok (some _, t) => nextAfter c n t

/-- Dropping rows on the way gives the first one after them. -/
theorem nextAfter_eq (c : Cursor ε α) (n : Nat) (s : c.State) :
    (nextAfter c n s).map (fun p => (p.1, (c.remaining p.2.2).drop p.2.1)) =
      ((c.remaining s).drop n).next := by
  fun_induction nextAfter c n s with
  | case1 s =>
    rw [Rows.drop]
    · rw [← c.next_eq]
      cases c.next s <;> simp only [Except.map, Rows.drop]
    · simp only [reduceCtorEq, false_implies, implies_true]
  | case2 s n e h => rw [remaining_of_error h]; rfl
  | case3 s n t h =>
    simp only [Except.map, (remaining_of_none h).1, (remaining_of_none h).2]
    rfl
  | case4 s n a t h ih => rw [ih, remaining_of_some h, Rows.drop]

/-- Skips the first rows. -/
def drop (c : Cursor ε α) (count : Nat) : Cursor ε α where
  State := Nat × c.State
  start := (count, c.start)
  next s := nextAfter c s.1 s.2
  reset s := (count, c.reset s.2)
  remaining s := (c.remaining s.2).drop s.1
  next_eq s := nextAfter_eq c s.1 s.2
  remaining_reset s := by simp only [c.remaining_reset]

/-- Stops after so many rows. -/
def take (c : Cursor ε α) (count : Nat) : Cursor ε α where
  State := Nat × c.State
  start := (count, c.start)
  next s :=
    match s.1 with
    | 0 => .ok (none, s)
    | n + 1 =>
      match c.next s.2 with
      | .error e => .error e
      | .ok (none, t) => .ok (none, n + 1, t)
      | .ok (some a, t) => .ok (some a, n, t)
  reset s := (count, c.reset s.2)
  remaining s := (c.remaining s.2).take s.1
  next_eq := by
    rintro ⟨n, s⟩
    cases n with
    | zero => simp only [Except.map, Rows.take, Rows.next]
    | succ n =>
      simp only
      split
      · rename_i e h
        rw [remaining_of_error h]
        rfl
      · rename_i t h
        simp only [Except.map, (remaining_of_none h).1, (remaining_of_none h).2]
        rfl
      · rename_i a t h
        rw [remaining_of_some h]
        rfl
  remaining_reset s := by simp only [c.remaining_reset]

end Cursor

end RdfStore.Eval
