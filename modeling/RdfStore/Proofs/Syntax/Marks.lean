import RdfStore.Proofs.Peg.Places
import RdfStore.Term.Basic
import Mathlib.Data.Countable.Basic
import Mathlib.Data.List.Induction
import Mathlib.Data.List.Nodup
import Mathlib.Logic.Equiv.List

/-!
# Marks of blank nodes

What a text says does not depend on the names of its blank nodes, so it is described under any
naming. A mark is what a blank node is named after: its label, or the spot in the text where it
stands without one. Different spots are different marks, however the document is nested. Readers
give out numbers one after the other, so the numbers of the marks met so far are their places in a
log; a log without repetitions extends to an injective numbering of all marks.

`Said` is what a part of a text denotes together with the statements in it. `link` is a list: its
cells from the first on, each with its item and the cell behind it.
-/

set_option autoImplicit false

namespace RdfStore.Syntax

open RdfStore.Peg

/-! ## Spots and marks -/

/-- Where a blank node without a label stands. -/
inductive Spot where
  /-- The blank node that a node of the text denotes. -/
  | node (place : Path)
  /-- The cell of an item in a list. -/
  | cell (place : Path) (index : Nat)
deriving DecidableEq

/-- What a blank node is named after. -/
inductive Mark where
  | label (name : String)
  | spot (s : Spot)
deriving DecidableEq

namespace Spot

/-- The node of the text that a spot belongs to. -/
def place : Spot → Path
  | node place | cell place _ => place

/-- The spot is at a node or inside it. -/
def IsInside (place : Path) (s : Spot) : Prop := place <:+ s.place

/-- The spot is inside a child of a node, at a position or behind it. -/
def IsBehind (place : Path) (i : Nat) (s : Spot) : Prop := ∃ j, i ≤ j ∧ s.IsInside (j :: place)

variable {place : Path} {i : Nat} {s : Spot}

/-- A spot inside a node is behind the place of the node. -/
theorem IsInside.behind (h : s.IsInside (i :: place)) : s.IsBehind place i := ⟨i, Nat.le_refl i, h⟩

/-- A spot behind some place inside a node is inside the node. -/
theorem IsBehind.inside (h : s.IsBehind place i) : s.IsInside place := by
  obtain ⟨j, -, hj⟩ := h
  exact (List.suffix_cons j place).trans hj

/-- What is behind a later place is behind an earlier one. -/
theorem IsBehind.mono {j : Nat} (h : s.IsBehind place i) (hj : j ≤ i) : s.IsBehind place j := by
  obtain ⟨k, hk, hinside⟩ := h
  exact ⟨k, Nat.le_trans hj hk, hinside⟩

/-- A child has no spot in common with those behind it. -/
theorem IsInside.not_behind (h : s.IsInside (i :: place)) : ¬s.IsBehind place (i + 1) := by
  rintro ⟨j, hj, hinside⟩
  have hsame := List.suffix_of_suffix_length_le h hinside (by simp)
  have heq := hsame.eq_of_length (by simp)
  simp at heq
  omega

/-- The spot is that of one of the first cells of the list at a node. -/
def IsCell (place : Path) (count : Nat) (s : Spot) : Prop := ∃ i < count, s = .cell place i

/-- The spot of a node is inside the node. -/
theorem isInside_node (place : Path) : (Spot.node place).IsInside place := List.suffix_rfl

/-- The spots of a node itself are not those of its children. -/
theorem not_behind_of_place (h : s.place = place) : ¬s.IsBehind place i := by
  rintro ⟨j, -, hinside⟩
  have hlength := hinside.length_le
  rw [h, List.length_cons] at hlength
  omega

end Spot

/-- A mark as numbers. -/
def Mark.code : Mark → List Nat ⊕ List Nat × Option Nat
  | .label name => .inl (name.toList.map Char.toNat)
  | .spot (.node place) => .inr (place, none)
  | .spot (.cell place index) => .inr (place, some index)

/-- Different marks have different codes. -/
theorem Mark.code_injective : Function.Injective Mark.code := by
  intro a b hab
  rcases a with name | ⟨place⟩ | ⟨place, index⟩ <;>
    rcases b with name' | ⟨place'⟩ | ⟨place', index'⟩ <;> simp [Mark.code] at hab
  · have hchar : Function.Injective Char.toNat := Function.LeftInverse.injective Char.ofNat_toNat
    have hname := List.map_injective_iff.mpr hchar hab
    rw [String.toList_injective hname]
  · rw [hab]
  · rw [hab.1, hab.2]

instance : Countable Mark := Mark.code_injective.countable

/-- The members of a log without repetitions can be numbered by their places in it, and all others
besides, without giving a number twice. -/
theorem exists_numbering {α : Type} [Countable α] {log : List α} (h : log.Nodup) :
    ∃ number : α → Nat, Function.Injective number ∧
      ∀ (i : Nat) (hi : i < log.length), number log[i] = i := by
  classical
  obtain ⟨code, hcode⟩ := exists_injective_nat α
  refine ⟨fun a => if a ∈ log then log.idxOf a else log.length + code a, ?_, fun i hi => ?_⟩
  · intro a b hab
    dsimp only at hab
    split at hab <;> split at hab
    · rename_i ha hb
      exact (List.idxOf_inj ha).mp hab
    · rename_i ha hb
      have := List.idxOf_lt_length_of_mem ha
      omega
    · rename_i ha hb
      have := List.idxOf_lt_length_of_mem hb
      omega
    · exact hcode (Nat.add_left_cancel hab)
  · dsimp only
    rw [if_pos (List.getElem_mem hi), h.idxOf_getElem i hi]

/-! ## What is said -/

/-- What a part of a text denotes, with the statements in it in their order, or nothing at all. -/
inductive Said (T α : Type) where
  | nothing
  | means (meaning : α) (statements : List T)

namespace Said

variable {T α β γ : Type}

/-- Statements that denote nothing themselves. -/
def say (ts : List T) : Said T Unit := .means () ts

/-- What a token denotes. -/
def ofExcept {ε : Type} : Except ε α → Said T α
  | .ok a => .means a []
  | .error _ => .nothing

/-- More statements in front of what is said. -/
def after (ts : List T) : Said T α → Said T α
  | .nothing => .nothing
  | .means a us => .means a (ts ++ us)

/-- What one part says and then the other. -/
protected def bind (x : Said T α) (f : α → Said T β) : Said T β :=
  match x with
  | .nothing => .nothing
  | .means a ts => (f a).after ts

instance : Monad (Said T) where
  pure a := .means a []
  bind := Said.bind

/-- What has a meaning goes on with what follows, behind its triples. -/
theorem means_bind (a : α) (ts : List T) (f : α → Said T β) : .means a ts >>= f = (f a).after ts :=
  rfl

/-- Nothing in front changes no meaning. -/
theorem after_nil (x : Said T α) : x.after [] = x := by
  cases x <;> rfl

/-- Triples in front stay there when a meaning goes on. -/
theorem after_bind (ts : List T) (x : Said T α) (f : α → Said T β) :
    x.after ts >>= f = (x >>= f).after ts := by
  cases x with
  | nothing => rfl
  | means a us =>
    rw [after, means_bind, means_bind]
    cases f a with
    | nothing => rfl
    | means b vs => simp [after]

instance : LawfulMonad (Said T) := by
  refine LawfulMonad.mk' (Said T) ?_ ?_ ?_
  · intro α x
    cases x with
    | nothing => rfl
    | means a ts =>
      show Said.means a (ts ++ []) = _
      rw [List.append_nil]
  · intro α β a f
    exact after_nil (f a)
  · intro α β γ x f g
    cases x with
    | nothing => rfl
    | means a ts =>
      rw [means_bind, means_bind, after_bind]

/-- What two parts say comes from what each of them says. -/
theorem bind_eq_means {x : Said T α} {f : α → Said T β} {b : β} {vs : List T}
    (h : x >>= f = .means b vs) :
    ∃ a ts us, x = .means a ts ∧ f a = .means b us ∧ vs = ts ++ us := by
  cases x with
  | nothing => cases h
  | means a ts =>
    rw [means_bind] at h
    cases hf : f a with
    | nothing =>
      rw [hf] at h
      cases h
    | means b' us =>
      rw [hf] at h
      cases h
      exact ⟨a, ts, us, rfl, hf, rfl⟩

end Said

/-- The first of two lists is a part of both in a row. -/
theorem infix_left {T : Type} (ts us : List T) : ts <:+: ts ++ us :=
  (List.prefix_append ts us).isInfix

/-- The second of two lists is a part of both in a row. -/
theorem infix_right {T : Type} (ts us : List T) : us <:+: ts ++ us :=
  (List.suffix_append ts us).isInfix

/-! ## Lists -/

/-- How a language states something of the cell of a list. -/
structure Listing (C N T : Type) where
  /-- The cell as an object. -/
  node : C → N
  state : C → Iri → N → T

namespace Listing

variable {C N T : Type} (form : Listing C N T) (cell : Nat → C)

/-- The cell at a position of a list with so many items, or what comes behind the last one. -/
def listNode (tail : N) (count i : Nat) : N := if i < count then form.node (cell i) else tail

/-- The two statements of a cell: its item and what comes behind it. -/
def cellStatements (tail : N) (count : Nat) (entry : N × Nat) : List T :=
  [form.state (cell entry.2) Vocabulary.rdfFirst entry.1,
    form.state (cell entry.2) Vocabulary.rdfRest (form.listNode cell tail count (entry.2 + 1))]

/-- The statements of a list, those of its last cell first. -/
def chain (tail : N) (items : List N) : List T :=
  (items.zipIdx.map (form.cellStatements cell tail items.length)).reverse.flatten

/-- A list denotes its first cell and states its cells. -/
def link (tail : N) (items : List N) : Said T N :=
  .means (form.listNode cell tail items.length 0) (form.chain cell tail items)

/-- In front of its last item a list goes on at the cell of that item. -/
theorem link_concat (tail : N) (items : List N) (item : N) :
    form.link cell tail (items ++ [item]) =
      (form.link cell (form.node (cell items.length)) items).after
        [form.state (cell items.length) Vocabulary.rdfFirst item,
          form.state (cell items.length) Vocabulary.rdfRest tail] := by
  have hnode : ∀ i ≤ items.length, form.listNode cell tail (items.length + 1) i =
      form.listNode cell (form.node (cell items.length)) items.length i := by
    intro i hi
    unfold listNode
    rw [if_pos (Nat.lt_succ_of_le hi)]
    split
    · rfl
    · rw [Nat.le_antisymm hi (by omega)]
  have hlast : form.listNode cell tail (items.length + 1) (items.length + 1) = tail :=
    if_neg (Nat.lt_irrefl _)
  have hbefore : items.zipIdx.map (form.cellStatements cell tail (items.length + 1)) =
      items.zipIdx.map (form.cellStatements cell (form.node (cell items.length)) items.length) := by
    refine List.map_congr_left fun entry hentry => ?_
    have hi := List.snd_lt_of_mem_zipIdx hentry
    rw [cellStatements, cellStatements, hnode _ (by omega)]
  simp only [link, chain, List.length_append, List.length_singleton, List.zipIdx_append,
    List.map_append, hbefore, hnode 0 (Nat.zero_le _)]
  simp [cellStatements, hlast, Said.after]

/-- There are two statements for every item. -/
theorem length_chain (tail : N) (items : List N) :
    (form.chain cell tail items).length = 2 * items.length := by
  induction items using List.reverseRecOn generalizing tail with
  | nil => rfl
  | append_singleton items item ih =>
    have hlink := form.link_concat cell tail items item
    rw [link, link, Said.after] at hlink
    injection hlink with _ hchain
    rw [hchain]
    simp [ih]
    omega

/-- A list denotes its first cell, and behind what its items say its own statements stand in a row
among some others: two for each item. -/
def IsLinked (tail : N) (count : Nat) (saidItems : Said T (List N)) (saidList : Said T N)
    (ts : List T) : Prop :=
  ∃ items inner, saidItems = .means items inner ∧ items.length = count ∧
    (form.chain cell tail items).length = 2 * count ∧
    saidList = .means (form.listNode cell tail count 0) (inner ++ form.chain cell tail items) ∧
    inner ++ form.chain cell tail items <:+: ts

variable {form cell}

/-- A list that is linked in some triples is linked in more of them. -/
theorem IsLinked.mono {tail : N} {count : Nat} {saidItems : Said T (List N)} {saidList : Said T N}
    {ts us : List T} (h : form.IsLinked cell tail count saidItems saidList ts) (hts : ts <:+: us) :
    form.IsLinked cell tail count saidItems saidList us := by
  obtain ⟨items, inner, hitems, hcount, hlength, hlist, hin⟩ := h
  exact ⟨items, inner, hitems, hcount, hlength, hlist, hin.trans hts⟩

/-- What is linked at its place is linked in what it says. -/
theorem isLinked_of_bind {tail node : N} {count : Nat} {saidItems : Said T (List N)} {ts : List T}
    (h : saidItems >>= form.link cell tail = .means node ts)
    (hcount : ∀ items inner, saidItems = .means items inner → items.length = count) :
    form.IsLinked cell tail count saidItems (saidItems >>= form.link cell tail) ts := by
  obtain ⟨items, inner, own, hitems, hlink, rfl⟩ := Said.bind_eq_means h
  have hlength := hcount items inner hitems
  cases hlink
  refine ⟨items, inner, hitems, hlength, ?_, ?_, List.infix_rfl⟩
  · rw [length_chain, hlength]
  · rw [h, hlength]

end Listing

end RdfStore.Syntax
