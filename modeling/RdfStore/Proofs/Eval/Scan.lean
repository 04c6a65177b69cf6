import RdfStore.Eval.Join
import RdfStore.Proofs.Eval.Merge
import RdfStore.Proofs.Store.Lookup

/-!
# One scan

A scan asks the store for the triples that agree with what a solution fixes, and accepts
those that give every variable one term. What comes of it are the extensions at the slots of
the scan that give a stored triple, one for each triple.
-/

set_option autoImplicit false

namespace RdfStore.Eval

open Query Solution

/-! ## One position -/

namespace Position

/-- The slot at a position. -/
def slots : Position → List Nat
  | constant _ => []
  | slot n => [n]

/-- The slot at a position is one of a solution of this width. -/
def IsWithin (width : Nat) (position : Position) : Prop := ∀ n ∈ position.slots, n < width

variable {position : Position} {row other : Solution} {t : Term}

/-- Extensions have the slots of what they extend. -/
theorem IsWithin.extended (h : position.IsWithin row.length) (hext : row.IsExtendedBy other) :
    position.IsWithin other.length := by
  rw [hext.length_eq]
  exact h

/-- What is fixed at a solution stays fixed at its extensions. -/
theorem wanted_mono (h : row.IsExtendedBy other) (hw : position.wanted row = some t) :
    position.wanted other = some t := by
  cases position with
  | constant u => exact hw
  | slot n => exact h.get?_eq n t hw

/-- A variable with a term accepts this term only. -/
theorem accept?_of_some {n : Nat} {u : Term} (h : row.get? n = some u) :
    (slot n).accept? t row = if u = t then some row else none := by
  simp only [accept?, h]

/-- A variable without a term takes it. -/
theorem accept?_of_none {n : Nat} (h : row.get? n = none) :
    (slot n).accept? t row = some (row.bind n t) := by
  simp only [accept?, h]

/-- Accepting a term keeps all terms. -/
theorem get?_of_accept? (h : position.accept? t row = some other) {n : Nat} {u : Term}
    (hu : row.get? n = some u) : other.get? n = some u := by
  cases position with
  | constant v =>
    cases h
    exact hu
  | slot m =>
    cases hrow : row.get? m with
    | some v =>
      rw [accept?_of_some hrow] at h
      split at h
      · cases h
        exact hu
      · cases h
    | none =>
      rw [accept?_of_none hrow] at h
      cases h
      exact get?_bind_of_get? t hrow hu

/-- An accepted term fills the slot of the position and no other. -/
theorem binds_of_accept? (h : position.accept? t row = some other) (n : Nat) :
    other.Binds n ↔ row.Binds n ∨ n ∈ position.slots := by
  cases position with
  | constant v =>
    cases h
    simp only [slots, List.not_mem_nil, or_false]
  | slot m =>
    rw [slots, List.mem_singleton]
    cases hrow : row.get? m with
    | some v =>
      rw [accept?_of_some hrow] at h
      split at h
      · cases h
        have hm : row.Binds m := Option.isSome_iff_exists.mpr ⟨v, hrow⟩
        constructor
        · exact Or.inl
        · rintro (hb | rfl)
          · exact hb
          · exact hm
      · cases h
    | none =>
      rw [accept?_of_none hrow] at h
      cases h
      exact binds_bind row m t n

/-- An accepted term extends the solution to one with the term at the position; that it is the
term of a constant is not looked at. -/
theorem accept?_sound (hwidth : position.IsWithin row.length)
    (hconst : ∀ u, position = constant u → u = t)
    (h : position.accept? t row = some other) :
    row.IsExtendedBy other ∧ position.wanted other = some t := by
  cases position with
  | constant u =>
    cases h
    exact ⟨.refl row, congrArg some (hconst u rfl)⟩
  | slot m =>
    have hm : m < row.length := hwidth m (List.mem_singleton.mpr rfl)
    cases hrow : row.get? m with
    | some u =>
      rw [accept?_of_some hrow] at h
      split at h
      · rename_i hut
        cases h
        rw [hut] at hrow
        exact ⟨.refl row, hrow⟩
      · cases h
    | none =>
      rw [accept?_of_none hrow] at h
      cases h
      refine ⟨isExtendedBy_bind hm t hrow, ?_⟩
      show (row.bind m t).get? m = some t
      rw [get?_bind, if_pos rfl]

/-- A term that an extension of the solution has at a position is accepted, and what comes
of it is still extended. -/
theorem accept?_complete (hwidth : position.IsWithin row.length)
    (hext : row.IsExtendedBy other) (h : position.wanted other = some t) :
    ∃ middle, position.accept? t row = some middle ∧ middle.IsExtendedBy other := by
  cases position with
  | constant u => exact ⟨row, rfl, hext⟩
  | slot m =>
    have hm : m < row.length := hwidth m (List.mem_singleton.mpr rfl)
    have hother : other.get? m = some t := h
    cases hrow : row.get? m with
    | some u =>
      have hut : u = t := by
        have hu := hext.get?_eq m u hrow
        rw [hother] at hu
        exact (Option.some.inj hu).symm
      exact ⟨row, by rw [accept?_of_some hrow, if_pos hut], hext⟩
    | none =>
      refine ⟨row.bind m t, accept?_of_none hrow, ?_, ?_⟩
      · rw [length_bind, hext.length_eq]
        omega
      · intro n u hu
        rw [get?_bind] at hu
        split at hu
        · rename_i hn
          cases hu
          rw [hn]
          exact hother
        · exact hext.get?_eq n u hu

end Position

/-! ## One pattern -/

namespace Scan

/-- The slots of a scan. -/
def slots (scan : Scan) : List Nat :=
  scan.subject.slots ++ scan.predicate.slots ++ scan.object.slots

/-- The slots of a scan are among those of a solution of this width. -/
structure IsWithin (width : Nat) (scan : Scan) : Prop where
  subject : scan.subject.IsWithin width
  predicate : scan.predicate.IsWithin width
  object : scan.object.IsWithin width

/-- The terms at the positions of a scan are those of a triple. -/
structure Gives (scan : Scan) (row : Solution) (m : Store.TermTriple) : Prop where
  subject : scan.subject.wanted row = some m.subject
  predicate : scan.predicate.wanted row = some m.predicate
  object : scan.object.wanted row = some m.object

variable {s : Store} {scan : Scan} {row other : Solution} {m : Store.TermTriple}

/-- Accepting a triple keeps all terms. -/
theorem get?_of_accept? (h : scan.accept? row m = some other) {n : Nat} {u : Term}
    (hu : row.get? n = some u) : other.get? n = some u := by
  obtain ⟨first, hfirst, h⟩ := Option.bind_eq_some_iff.mp h
  obtain ⟨second, hsecond, hlast⟩ := Option.bind_eq_some_iff.mp h
  exact Position.get?_of_accept? hlast
    (Position.get?_of_accept? hsecond (Position.get?_of_accept? hfirst hu))

/-- An accepted triple fills the slots of the scan and no others. -/
theorem binds_of_accept? (h : scan.accept? row m = some other) (n : Nat) :
    other.Binds n ↔ row.Binds n ∨ n ∈ scan.slots := by
  obtain ⟨first, hfirst, h⟩ := Option.bind_eq_some_iff.mp h
  obtain ⟨second, hsecond, hlast⟩ := Option.bind_eq_some_iff.mp h
  rw [Position.binds_of_accept? hlast, Position.binds_of_accept? hsecond,
    Position.binds_of_accept? hfirst, slots, List.mem_append, List.mem_append, or_assoc, or_assoc,
    or_assoc]

/-- An accepted triple that agrees with what is fixed extends the solution at the slots of
the scan, to one that gives it. -/
theorem accept?_sound (hwidth : scan.IsWithin row.length)
    (hagrees : m.Agrees (scan.subject.wanted row) (scan.predicate.wanted row)
      (scan.object.wanted row))
    (h : scan.accept? row m = some other) :
    row.IsExtendedBy other ∧ scan.Gives other m ∧
      ∀ n, other.Binds n ↔ row.Binds n ∨ n ∈ scan.slots := by
  have hbinds := binds_of_accept? h
  obtain ⟨hsub, hpred, hobj⟩ := hagrees
  unfold accept? at h
  obtain ⟨first, hfirst, h⟩ := Option.bind_eq_some_iff.mp h
  obtain ⟨second, hsecond, hlast⟩ := Option.bind_eq_some_iff.mp h
  obtain ⟨hext₁, hgives₁⟩ := Position.accept?_sound hwidth.subject
    (fun u hu => hsub u (by rw [hu]; rfl)) hfirst
  obtain ⟨hext₂, hgives₂⟩ := Position.accept?_sound (hwidth.predicate.extended hext₁)
    (fun u hu => hpred u (by rw [hu]; rfl)) hsecond
  obtain ⟨hext₃, hgives₃⟩ := Position.accept?_sound
    (hwidth.object.extended (hext₁.trans hext₂)) (fun u hu => hobj u (by rw [hu]; rfl)) hlast
  refine ⟨(hext₁.trans hext₂).trans hext₃, ⟨?_, ?_, hgives₃⟩, hbinds⟩
  · exact Position.wanted_mono (hext₂.trans hext₃) hgives₁
  · exact Position.wanted_mono hext₃ hgives₂

/-- A triple that an extension of the solution gives is accepted, and what comes of it is
still extended. -/
theorem accept?_complete (hwidth : scan.IsWithin row.length) (hext : row.IsExtendedBy other)
    (h : scan.Gives other m) :
    ∃ middle, scan.accept? row m = some middle ∧ middle.IsExtendedBy other := by
  -- all three positions are slots of `other`, and so of what comes of each step
  obtain ⟨first, hfirst, hext₁⟩ := Position.accept?_complete hwidth.subject hext h.subject
  have hpredWidth := hwidth.predicate.extended hext
  rw [hext₁.length_eq] at hpredWidth
  obtain ⟨second, hsecond, hext₂⟩ := Position.accept?_complete hpredWidth hext₁ h.predicate
  have hobjWidth := hwidth.object.extended hext
  rw [hext₂.length_eq] at hobjWidth
  obtain ⟨last, hlast, hext₃⟩ := Position.accept?_complete hobjWidth hext₂ h.object
  refine ⟨last, ?_, hext₃⟩
  unfold accept?
  rw [hfirst, Option.bind_eq_bind, Option.bind_some, hsecond, Option.bind_some]
  exact hlast

/-- What an extension gives agrees with what is fixed before. -/
theorem Gives.agrees (h : scan.Gives other m) (hext : row.IsExtendedBy other) :
    m.Agrees (scan.subject.wanted row) (scan.predicate.wanted row) (scan.object.wanted row) := by
  have hpos : ∀ {position : Position} {t : Term}, position.wanted other = some t →
      ∀ u, position.wanted row = some u → u = t := by
    intro position t ht u hu
    rw [Position.wanted_mono hext hu] at ht
    exact Option.some.inj ht
  exact ⟨hpos h.subject, hpos h.predicate, hpos h.object⟩

/-- A solution gives one triple. -/
theorem Gives.unique {m' : Store.TermTriple} (h : scan.Gives row m) (h' : scan.Gives row m') :
    m = m' := by
  obtain ⟨hs, hp, ho⟩ := h
  rw [h'.subject] at hs
  rw [h'.predicate] at hp
  rw [h'.object] at ho
  cases m
  cases m'
  cases hs
  cases hp
  cases ho
  rfl

/-- A solution that comes of a scan extends the one it started from at the slots of the
scan, and gives a stored triple. -/
theorem rows_sound (hs : s.IsCoherent) (hwidth : scan.IsWithin row.length)
    (h : other ∈ scan.rows s row) :
    row.IsExtendedBy other ∧ (∀ n, other.Binds n ↔ row.Binds n ∨ n ∈ scan.slots) ∧
      ∃ t, s.contains t = true ∧ scan.Gives other (.ofTriple t) := by
  obtain ⟨m, hm, haccept⟩ := List.mem_filterMap.mp h
  obtain ⟨hagrees, t, ht, rfl⟩ := (Store.mem_matching hs).mp hm
  obtain ⟨hext, hgives, hbinds⟩ := accept?_sound hwidth hagrees haccept
  exact ⟨hext, hbinds, t, ht, hgives⟩

/-- When an extension gives a stored triple, some solution that comes of the scan is still
extended by it. -/
theorem rows_complete (hs : s.IsCoherent) (hwidth : scan.IsWithin row.length)
    (hext : row.IsExtendedBy other) {t : Triple} (ht : s.contains t = true)
    (h : scan.Gives other (.ofTriple t)) :
    ∃ middle ∈ scan.rows s row, middle.IsExtendedBy other := by
  obtain ⟨middle, haccept, hmiddle⟩ := accept?_complete hwidth hext h
  refine ⟨middle, List.mem_filterMap.mpr ⟨.ofTriple t, ?_, haccept⟩, hmiddle⟩
  exact (Store.mem_matching hs).mpr ⟨h.agrees hext, t, ht, rfl⟩

/-- A scan gives no solution twice. -/
theorem rows_nodup (hs : s.IsCoherent) (hwidth : scan.IsWithin row.length) :
    (scan.rows s row).Nodup := by
  unfold rows
  refine List.pairwise_filterMap.mpr ((Store.matching_nodup hs _ _ _).imp_of_mem ?_)
  -- the triple can be read back from the solution that accepts it
  rintro m m' hm hm' hne r hr r' hr' rfl
  obtain ⟨hagrees, -⟩ := (Store.mem_matching hs).mp hm
  obtain ⟨hagrees', -⟩ := (Store.mem_matching hs).mp hm'
  obtain ⟨-, hgives, -⟩ := accept?_sound hwidth hagrees hr
  obtain ⟨-, hgives', -⟩ := accept?_sound hwidth hagrees' hr'
  exact hne (hgives.unique hgives')

end Scan

end RdfStore.Eval
