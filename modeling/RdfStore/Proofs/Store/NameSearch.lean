import RdfStore.Proofs.Store.Separation
import RdfStore.Proofs.Syntax.TokenTerms

/-!
# The search for a fresh name

A search tries one name after the other until one is free, without a bound. On a coherent store it
ends after as many attempts as there are terms, and one more at most. A store searches whenever it
is asked for a fresh blank node, and for every blank node of a batch when it first turns up. The
attempts are counted on through all calls, also through those that remove everything, so no two
searches of a run end with the same name, whatever the clock shows.
-/

set_option autoImplicit false

namespace RdfStore

/-- A search from a state, the number of its attempts, and the free name and the state it ends
with. -/
inductive Search {σ : Type} (attempt : σ → BlankNode × σ) (isTaken : σ → BlankNode → Bool) :
    σ → Nat → BlankNode × σ → Prop where
  | free {state : σ} (h : isTaken state (attempt state).1 = false) :
    Search attempt isTaken state 1 (attempt state)
  | taken {state : σ} {attempts : Nat} {result : BlankNode × σ}
    (h : isTaken state (attempt state).1 = true)
    (rest : Search attempt isTaken (attempt state).2 attempts result) :
    Search attempt isTaken state (attempts + 1) result

namespace Store

variable {s s' : Store}

/-- A search for a fresh blank node in a store. -/
abbrev FindsBlank (s : Store) (attempts : Nat) (result : BlankNode × Store) : Prop :=
  Search attempt (fun s node => s.containsTerm (.blank node)) s attempts result

/-- With a bound that leads to a free name, the search ends within the bound. -/
theorem findsBlank_of_free (fuel : Nat) (s : Store)
    (h : s.containsTerm (.blank (freshBlankWithin fuel s).1) = false) :
    ∃ attempts ≤ fuel + 1, s.FindsBlank attempts (freshBlankWithin fuel s) := by
  -- an attempt changes no term, so what is free at the end is free at the start
  induction fuel generalizing s with
  | zero => exact ⟨1, Nat.le_refl _, .free h⟩
  | succ fuel ih =>
    rw [freshBlankWithin_succ] at h ⊢
    by_cases hknown : s.containsTerm (.blank s.attempt.1) = true
    · rw [if_pos hknown] at h ⊢
      obtain ⟨attempts, hle, hfinds⟩ := ih s.attempt.2 h
      exact ⟨attempts + 1, Nat.succ_le_succ hle, .taken hknown hfinds⟩
    · rw [if_neg hknown] at h ⊢
      exact ⟨1, Nat.succ_le_succ (Nat.zero_le _), .free h⟩

/-- What is promised of a fresh blank node: its search ends after as many attempts as the store has
terms, and one more at most; its label is valid, and the store does not know it. -/
structure GivesFreshBlank (s : Store) : Prop where
  ends : ∃ attempts ≤ s.termCount + 1, s.FindsBlank attempts s.freshBlank
  valid : s.freshBlank.1.IsWellFormed
  unknown : s.containsTerm (.blank s.freshBlank.1) = false

/-- A coherent store gives a fresh blank node after finitely many attempts. -/
theorem givesFreshBlank (hs : s.IsCoherent) : s.GivesFreshBlank where
  ends := findsBlank_of_free s.termCount s (containsTerm_freshBlank hs)
  valid := by
    obtain ⟨_, _, -, tick, n, -, -, hnode⟩ := freshBlank_spec s
    rw [hnode]
    exact isWellFormed_freshLabel tick n
  unknown := containsTerm_freshBlank hs

/-! ## Moments of a run -/

/-- The stores in which a fresh blank node is asked for when a term is renamed. -/
def termMoments (s : Store) (names : Renaming) : Term → List Store
  | .blank node => if (names.lookup node).isSome then [] else [s]
  | _ => []

/-- The stores in which fresh blank nodes are asked for when a triple is renamed. -/
def tripleMoments (s : Store) (names : Renaming) (t : Triple) : List Store :=
  let (_, names', s') := s.renameSubject names t.subject
  termMoments s names t.subject.toTerm ++ termMoments s' names' t.object

/-- The stores in which fresh blank nodes are asked for when a batch is added. -/
def batchMoments (s : Store) (names : Renaming) : List Triple → List Store
  | [] => []
  | t :: rest =>
    let (new, names', s') := s.renameTriple names t
    tripleMoments s names t ++ batchMoments (s'.add new).2 names' rest

/-- The stores in which a call asks for fresh blank nodes. -/
def moments (s : Store) : Call → List Store
  | .freshBlank => [s]
  | .insertScoped batch => batchMoments s [] batch
  | _ => []

/-- The stores in which a run of calls asks for fresh blank nodes, in their order. -/
def allMoments (s : Store) : List Call → List Store
  | [] => []
  | call :: rest => s.moments call ++ allMoments (s.perform call).2 rest

/-- From one store to another fresh blank nodes were asked for in the given stores: they are
coherent, and the names they gave are different ones, each of an attempt made on the way. -/
structure Asks (s : Store) (moments : List Store) (s' : Store) : Prop where
  coherent : s'.IsCoherent
  le : s.blankCounter ≤ s'.blankCounter
  moment : ∀ m ∈ moments, m.IsCoherent
  named : ∀ m ∈ moments, IsNamedWithin s.blankCounter s'.blankCounter m.freshBlank.1
  nodup : (moments.map fun m => m.freshBlank.1).Nodup

/-- Nothing was asked for. -/
theorem Asks.none (hs' : s'.IsCoherent) (hcount : s'.blankCounter = s.blankCounter) :
    Asks s [] s' :=
  ⟨hs', hcount.ge, fun _ h => absurd h List.not_mem_nil, fun _ h => absurd h List.not_mem_nil,
    List.nodup_nil⟩

/-- A fresh blank node was asked for once. -/
theorem Asks.once (hs : s.IsCoherent) : Asks s [s] s.freshBlank.2 := by
  obtain ⟨clock, attempts, hstate, hname⟩ := freshBlank_spec s
  have hcount : s.freshBlank.2.blankCounter = attempts := congrArg blankCounter hstate
  rw [← hcount] at hname
  have hle : s.blankCounter ≤ s.freshBlank.2.blankCounter := by
    obtain ⟨-, n, hlow, hhigh, -⟩ := hname
    omega
  refine ⟨hstate ▸ isCoherent_renamed hs clock attempts, hle, ?_, ?_, List.nodup_singleton _⟩
  · intro m hm
    obtain rfl := List.mem_singleton.mp hm
    exact hs
  · intro m hm
    obtain rfl := List.mem_singleton.mp hm
    exact hname

/-- What is asked for later gets names of later attempts. -/
theorem Asks.trans {s'' : Store} {before after : List Store} (h : Asks s before s')
    (h' : Asks s' after s'') : Asks s (before ++ after) s'' := by
  refine ⟨h'.coherent, Nat.le_trans h.le h'.le, ?_, ?_, ?_⟩
  · intro m hm
    rcases List.mem_append.mp hm with hm | hm
    · exact h.moment m hm
    · exact h'.moment m hm
  · intro m hm
    rcases List.mem_append.mp hm with hm | hm
    · exact (h.named m hm).mono (Nat.le_refl _) h'.le
    · exact (h'.named m hm).mono h.le (Nat.le_refl _)
  · rw [List.map_append]
    refine List.nodup_append.mpr ⟨h.nodup, h'.nodup, fun a ha b hb => ?_⟩
    obtain ⟨m, hm, rfl⟩ := List.mem_map.mp ha
    obtain ⟨m', hm', rfl⟩ := List.mem_map.mp hb
    exact ne_of_isNamedWithin (h.named m hm) (h'.named m' hm')

/-! ## Batches -/

/-- Renaming a blank node asks for a fresh one unless the node has a name. -/
theorem asks_rename (hs : s.IsCoherent) (names : Renaming) (node : BlankNode) :
    Asks s (termMoments s names (.blank node)) (s.rename names node).2.2 := by
  rw [termMoments, rename]
  cases names.lookup node with
  | some new => exact .none hs rfl
  | none => exact .once hs

/-- Renaming a subject asks for fresh nodes only at the moments that are counted for it. -/
theorem asks_renameSubject (hs : s.IsCoherent) (names : Renaming) (sub : Subject) :
    Asks s (termMoments s names sub.toTerm) (s.renameSubject names sub).2.2 := by
  cases sub with
  | iri node => exact .none hs rfl
  | blank node => exact asks_rename hs names node

/-- Renaming a term asks for fresh nodes only at the moments that are counted for it. -/
theorem asks_renameTerm (hs : s.IsCoherent) (names : Renaming) (x : Term) :
    Asks s (termMoments s names x) (s.renameTerm names x).2.2 := by
  cases x with
  | iri node => exact .none hs rfl
  | literal value => exact .none hs rfl
  | blank node => exact asks_rename hs names node

/-- Renaming a triple asks for its subject and then for its object. -/
theorem asks_renameTriple (hs : s.IsCoherent) (names : Renaming) (t : Triple) :
    Asks s (tripleMoments s names t) (s.renameTriple names t).2.2 := by
  have hsubject := asks_renameSubject hs names t.subject
  exact hsubject.trans (asks_renameTerm hsubject.coherent _ t.object)

/-- Adding a triple asks for nothing. -/
theorem asks_add (hs : s.IsCoherent) (t : Triple) : Asks s [] (s.add t).2 :=
  .none (isCoherent_add hs t) (add_clock s t).2

/-- Adding a batch asks for the blank nodes of one triple after the other. -/
theorem asks_insertRenamed (hs : s.IsCoherent) (names : Renaming) (batch : List Triple) :
    Asks s (batchMoments s names batch) (s.insertRenamed names batch).2 := by
  induction batch generalizing s names with
  | nil => exact .none hs rfl
  | cons t rest ih =>
    have htriple := asks_renameTriple hs names t
    rw [insertRenamed_cons, batchMoments]
    generalize s.renameTriple names t = renamed at htriple ⊢
    obtain ⟨new, named, later⟩ := renamed
    have hadd := asks_add htriple.coherent new
    exact htriple.trans (hadd.trans (ih hadd.coherent named))

/-! ## Runs -/

/-- A call asks for fresh blank nodes at its moments. -/
theorem asks_perform (hs : s.IsCoherent) (call : Call) :
    Asks s (s.moments call) (s.perform call).2 := by
  cases call with
  | add t => exact asks_add hs t
  | extend triples => exact .none (isCoherent_perform hs _) (blankCounter_extend s triples)
  | insertScoped batch => exact asks_insertRenamed hs [] batch
  | freshBlank => exact .once hs
  | clear => exact .none (isCoherent_clear s) rfl
  | readClock => exact .none (isCoherent_perform hs .readClock) rfl

/-- So do all calls of a run. -/
theorem asks_performAll (hs : s.IsCoherent) (calls : List Call) :
    Asks s (s.allMoments calls) (s.performAll calls).2 := by
  induction calls generalizing s with
  | nil => exact .none hs rfl
  | cons call rest ih =>
    have hcall := asks_perform hs call
    exact hcall.trans (ih hcall.coherent)

end Store

end RdfStore
