import RdfStore.Proofs.Eval.NoFailure

/-!
# Plans are tapes

A plan behaves like a tape with the rows of its query on it. A pull reads the row under the head and
moves on, past the last row it reads nothing and stays past it, and a reset winds back to the first
row, whatever the operators of the plan have buffered, loaded, seen or counted by then. What a run
of pulls and resets answers, and what is left to read after it, depends only on the number of pulls
since the last reset.
-/

set_option autoImplicit false

namespace RdfStore.Eval

open Query

/-! ## Runs of a cursor -/

/-- What can be done with a cursor. -/
inductive Move where
  | pull
  | reset

namespace Cursor

variable {ε α : Type}

/-- Makes moves one after the other; the answers are those of the pulls. -/
def play (c : Cursor ε α) : List Move → c.State → Except ε (List (Option α) × c.State)
  | [], s => .ok ([], s)
  | .pull :: rest, s =>
    (c.next s).bind fun p => (c.play rest p.2).map fun others => (p.1 :: others.1, others.2)
  | .reset :: rest, s => c.play rest (c.reset s)

end Cursor

/-! ## Runs of a tape -/

/-- Where the head is after moves from a place: at every pull it moves on, at a reset it goes back
to the start. -/
def headAfter (place : Nat) : List Move → Nat
  | [] => place
  | .pull :: rest => headAfter (place + 1) rest
  | .reset :: rest => headAfter 0 rest

/-- What the pulls among moves read from a place on. -/
def readings {α : Type} (rows : List α) (place : Nat) : List Move → List (Option α)
  | [] => []
  | .pull :: rest => rows[place]? :: readings rows (place + 1) rest
  | .reset :: rest => readings rows 0 rest

/-- Pulls move the place on by their number. -/
theorem headAfter_pulls (place count : Nat) :
    headAfter place (List.replicate count .pull) = place + count := by
  induction count generalizing place with
  | zero => rfl
  | succ count ih =>
    rw [List.replicate_succ, headAfter, ih]
    omega

/-- So many pulls read the rows from a place on, and then nothing. -/
theorem readings_pulls {α : Type} (rows : List α) (place count : Nat) :
    readings rows place (List.replicate count .pull) =
      ((rows.drop place).take count).map some ++
        List.replicate (count - (rows.length - place)) none := by
  induction count generalizing place with
  | zero => simp [readings]
  | succ count ih =>
    rw [List.replicate_succ, readings, ih]
    rcases Nat.lt_or_ge place rows.length with hlt | hge
    · have hleft : count + 1 - (rows.length - place) = count - (rows.length - (place + 1)) := by
        omega
      rw [hleft, List.drop_eq_getElem_cons hlt, List.getElem?_eq_getElem hlt]
      rfl
    · have hleft : count + 1 - (rows.length - place) = count - (rows.length - (place + 1)) + 1 := by
        omega
      rw [hleft, List.getElem?_eq_none hge, List.drop_eq_nil_of_le hge,
        List.drop_eq_nil_of_le (Nat.le_succ_of_le hge), List.take_nil, List.take_nil,
        List.replicate_succ]
      rfl

/-! ## A cursor is a tape -/

namespace Cursor

variable {α : Type} {c : Cursor ExecutionError α} {rows : List α} {s : c.State} {place : Nat}

/-- In a state the rows from a place on remain. -/
def IsAt (c : Cursor ExecutionError α) (rows : List α) (place : Nat) (s : c.State) : Prop :=
  c.remaining s = .ofList (rows.drop place)

/-- A cursor that lists rows is in front of the first one when it starts. -/
theorem Lists.isAt_start (h : c.Lists rows) : c.IsAt rows 0 c.start := h

/-- A reset winds back from every state. -/
theorem Lists.isAt_reset (h : c.Lists rows) (s : c.State) : c.IsAt rows 0 (c.reset s) :=
  (c.remaining_reset s).trans h

/-- A pull reads the row at its place and moves on, also past the last row. -/
theorem IsAt.next (h : c.IsAt rows place s) :
    ∃ t, c.next s = .ok (rows[place]?, t) ∧ c.IsAt rows (place + 1) t := by
  obtain ⟨t, ht, hrest⟩ := next_of_remaining h
  rw [List.head?_drop] at ht
  rw [List.tail_drop] at hrest
  exact ⟨t, ht, hrest⟩

/-- Draining reads all rows from the place on. -/
theorem IsAt.drain (h : c.IsAt rows place s) :
    (c.drain s).map Prod.fst = .ok (rows.drop place) := by
  rw [drain_rows, h]
  exact Rows.toExcept_ofList _

/-- Moves answer what they read on the tape, and leave the cursor where they leave the head. -/
theorem IsAt.play (hc : c.Lists rows) (h : c.IsAt rows place s) (moves : List Move) :
    ∃ t, c.play moves s = .ok (readings rows place moves, t) ∧
      c.IsAt rows (headAfter place moves) t := by
  induction moves generalizing s place with
  | nil => exact ⟨s, rfl, h⟩
  | cons move rest ih =>
    cases move with
    | pull =>
      obtain ⟨t, ht, hnext⟩ := h.next
      obtain ⟨u, hu, hlast⟩ := ih hnext
      refine ⟨u, ?_, hlast⟩
      show (c.next s).bind _ = _
      rw [ht]
      show (c.play rest t).map _ = _
      rw [hu]
      rfl
    | reset => exact ih (hc.isAt_reset s)

/-- After a pull without a row there will be none, whatever the state before it. -/
theorem play_pulls_of_none {t : c.State} (hc : c.Lists rows) (h : c.next s = .ok (none, t))
    (count : Nat) :
    ∃ u, c.play (List.replicate count .pull) t = .ok (List.replicate count none, u) := by
  have hend : c.IsAt rows rows.length t := by
    unfold IsAt
    rw [List.drop_length]
    exact (remaining_of_none h).2
  obtain ⟨u, hu, -⟩ := hend.play hc (List.replicate count .pull)
  rw [readings_pulls, List.drop_length, List.take_nil, Nat.sub_self, Nat.sub_zero] at hu
  exact ⟨u, hu⟩

end Cursor

/-! ## Plans -/

/-- The plan of a query that is read can be pulled any number of times: it hands out the first rows
of a full drain and then nothing, and from there it drains the other rows, or all of them again
after a reset. Once there is no row there is none until a reset. In general a run of pulls and
resets reads a tape with the rows on it. -/
theorem plan_rewinds {text : String} {q : Query} (hread : Query.read text = .ok q) (s : Store) :
    ∃ p rows, plan (envOf s q) q = .ok p ∧ p.root.toList = .ok rows ∧
      (∀ count, ∃ t, p.root.play (List.replicate count .pull) p.root.start =
          .ok ((rows.take count).map some ++ List.replicate (count - rows.length) none, t) ∧
        (p.root.drain t).map Prod.fst = .ok (rows.drop count) ∧
        (p.root.drain (p.root.reset t)).map Prod.fst = .ok rows) ∧
      (∀ t u, p.root.next t = .ok (none, u) → ∀ count, ∃ v,
        p.root.play (List.replicate count .pull) u = .ok (List.replicate count none, v)) ∧
      ∀ moves, ∃ t, p.root.play moves p.root.start = .ok (readings rows 0 moves, t) ∧
        (p.root.drain t).map Prod.fst = .ok (rows.drop (headAfter 0 moves)) := by
  obtain ⟨root, hplan, hlists⟩ := plan_lists s (read_placed hread)
  have hrun := hlists.isAt_start.play hlists
  refine ⟨_, _, hplan, hlists.toList_eq, fun count => ?_,
    fun t u hnone => Cursor.play_pulls_of_none hlists hnone, fun moves => ?_⟩
  · obtain ⟨t, ht, hplace⟩ := hrun (List.replicate count .pull)
    rw [readings_pulls, List.drop_zero, Nat.sub_zero] at ht
    rw [headAfter_pulls, Nat.zero_add] at hplace
    exact ⟨t, ht, hplace.drain, (hlists.isAt_reset t).drain⟩
  · obtain ⟨t, ht, hplace⟩ := hrun moves
    exact ⟨t, ht, hplace.drain⟩

/-- A text with something of everything that a plan is built of. -/
def everyOperator : String :=
  "SELECT DISTINCT ?x (STR(?y) AS ?k) \x7b ?x ?p ?y OPTIONAL \x7b ?y ?p ?z \x7d " ++
    "\x7b ?x ?q ?y \x7d UNION \x7b ?x ?q ?z \x7d MINUS \x7b ?x ?q ?x \x7d BIND(1 AS ?m) " ++
    "VALUES ?m \x7b 1 UNDEF \x7d FILTER(BOUND(?x)) \x7d ORDER BY ?k LIMIT 5 OFFSET 1"

/-- The text is a query. -/
theorem isAccepted_everyOperator : isAccepted everyOperator = true := by decide +kernel

/-- The plan of the text on the refilled store hands out two rows, or what there is of them, and
drains all rows after a reset. -/
theorem plan_rewinds_everyOperator :
    ∃ q p rows t, Query.read everyOperator = .ok q ∧ plan (envOf Store.refilled q) q = .ok p ∧
      p.root.toList = .ok rows ∧
      p.root.play [.pull, .pull] p.root.start =
        .ok ((rows.take 2).map some ++ List.replicate (2 - rows.length) none, t) ∧
      (p.root.drain (p.root.reset t)).map Prod.fst = .ok rows := by
  obtain ⟨q, hread⟩ := exists_read_of_isAccepted isAccepted_everyOperator
  obtain ⟨p, rows, hplan, hrows, hpulls, -, -⟩ := plan_rewinds hread Store.refilled
  obtain ⟨t, ht, -, hreset⟩ := hpulls 2
  exact ⟨q, p, rows, t, hread, hplan, hrows, ht, hreset⟩

end RdfStore.Eval
