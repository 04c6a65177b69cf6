import Mathlib.Data.List.Perm.Basic
import RdfStore.Eval.Join
import RdfStore.Proofs.Eval.Merge
import RdfStore.Proofs.Store.Lookup

/-!
# Joins with tables

Joining a row with a table merges it with the compatible rows of the table. Two joins can be
exchanged, and a join with two tables is a join with the table of their merges. Scans look
different: they put the terms of the row into the lookup before they ask the store. But what
comes of it is again a join, with the table of all triples that the pattern can match.
-/

set_option autoImplicit false

namespace RdfStore.Eval

open Query Solution

/-! ## Two tables -/

/-- Every pair of rows of two tables, in either order of the loops. -/
theorem flatMap_filterMap_comm {α β γ : Type} (f : α → β → Option γ) (as : List α)
    (bs : List β) :
    (as.flatMap fun a => bs.filterMap (f a)).Perm
      (bs.flatMap fun b => as.filterMap fun a => f a b) := by
  induction as with
  | nil =>
    have hnone : (bs.flatMap fun b => ([] : List α).filterMap fun a => f a b) = [] := by
      simp
    rw [hnone]
    exact List.Perm.refl []
  | cons a rest ih =>
    have hsplit : ∀ b, ((a :: rest).filterMap fun a => f a b) =
        (f a b).toList ++ rest.filterMap fun a => f a b := by
      intro b
      cases hb : f a b <;> simp [hb]
    have hfirst : bs.filterMap (f a) = bs.flatMap fun b => (f a b).toList := by
      rw [List.filterMap_eq_flatMap_toList]
    rw [List.flatMap_cons, hfirst]
    simp only [hsplit]
    exact (ih.append_left _).trans (List.flatMap_append_perm bs _ _)

variable {row : Solution}

/-- Joining with two tables in turn is joining with all pairs of their rows that merge. -/
theorem flatMap_joinTable (first second : List Solution) (row : Solution) :
    (joinTable first row).flatMap (joinTable second) =
      first.flatMap fun a => second.filterMap fun b =>
        (merge? row a).bind fun m => merge? m b := by
  unfold joinTable
  induction first with
  | nil => rfl
  | cons a rest ih =>
    rw [List.flatMap_cons, ← ih]
    cases ha : merge? row a with
    | none => simp [ha]
    | some m => simp [ha]

/-- Permuted tables give the same merges with a row. -/
theorem joinTable_perm {table other : List Solution} (row : Solution) (h : table.Perm other) :
    (joinTable table row).Perm (joinTable other row) := h.filterMap _

/-- Joining with two tables does not depend on which comes first. -/
theorem joinTable_comm (first second : List Solution) (row : Solution) :
    ((joinTable first row).flatMap (joinTable second)).Perm
      ((joinTable second row).flatMap (joinTable first)) := by
  rw [flatMap_joinTable, flatMap_joinTable]
  refine (flatMap_filterMap_comm _ first second).trans ?_
  simp only [merge?_right_comm row]
  exact List.Perm.refl _

/-- Joining with one table after another is joining with the table of their merges. -/
theorem joinTable_flatMap (first second : List Solution) (row : Solution) :
    joinTable (first.flatMap (joinTable second)) row =
      (joinTable first row).flatMap (joinTable second) := by
  rw [flatMap_joinTable]
  unfold joinTable
  rw [List.filterMap_flatMap]
  simp only [List.filterMap_filterMap, merge?_assoc]

/-! ## Scans -/

namespace Position

/-- The solution that gives a term at a position and nothing else; none if the position has
another term. -/
def only? (t : Term) : Position → Option Solution
  | constant u => if u = t then some [] else none
  | slot n => some (single n t)

variable {position : Position} {t : Term} {other : Solution}

/-- Accepting a term in a position is merging with the row that binds it there. -/
theorem accept?_eq_merge? (h : position.only? t = some other) :
    position.accept? t row = merge? row other := by
  cases position with
  | constant u =>
    simp only [only?] at h
    split at h
    · cases h
      exact (merge?_of_free get?_nil row).symm
    · cases h
  | slot n =>
    cases h
    rw [merge?_single]
    rfl

/-- A position asks for the one term that it accepts. -/
theorem wanted_of_only? (h : position.only? t = some other) : position.wanted other = some t := by
  cases position with
  | constant u =>
    simp only [only?] at h
    split at h
    · rename_i hut
      exact congrArg some hut
    · cases h
  | slot n =>
    cases h
    show (single n t).get? n = some t
    rw [get?_single, if_pos rfl]

/-- A position that asks for no other term than the given one can give it. -/
theorem exists_only? (h : ∀ u, position.wanted row = some u → u = t) :
    ∃ other, position.only? t = some other := by
  cases position with
  | constant u => exact ⟨[], by rw [only?, if_pos (h u rfl)]⟩
  | slot n => exact ⟨single n t, rfl⟩

end Position

/-- A merged row has the values of both, and they agree where both have one. -/
theorem get?_of_merge? {a b m : Solution} (h : merge? a b = some m) (n : Nat) :
    m.get? n = (a.get? n).or (b.get? n) ∧
      ∀ t u, a.get? n = some t → b.get? n = some u → t = u := by
  unfold merge? at h
  split at h
  · rename_i hcompatible
    cases h
    exact ⟨get?_overlay a b n, compatible_iff.mp hcompatible n⟩
  · cases h

/-- A term of either side is the term of a merge. -/
theorem get?_merge?_of_some {a b m : Solution} (h : merge? a b = some m) {n : Nat} {t : Term}
    (ht : a.get? n = some t ∨ b.get? n = some t) : m.get? n = some t := by
  obtain ⟨hget, hagree⟩ := get?_of_merge? h n
  rw [hget]
  rcases ht with ht | ht
  · rw [ht]
    rfl
  · cases ha : a.get? n with
    | none => exact ht
    | some s => exact congrArg some (hagree s t ha ht)

/-- What a position asks for in a part of a merged row it asks for in the whole. -/
theorem Position.wanted_merge? {position : Position} {a b m : Solution}
    (h : merge? a b = some m) {t : Term}
    (ht : position.wanted a = some t ∨ position.wanted b = some t) :
    position.wanted m = some t := by
  cases position with
  | constant u => exact ht.elim id id
  | slot n => exact get?_merge?_of_some h ht

/-- What two compatible solutions fix at a position is the same. -/
theorem Position.wanted_unique {position : Position} {a b m : Solution}
    (h : merge? a b = some m) {t u : Term} (ht : position.wanted a = some t)
    (hu : position.wanted b = some u) : t = u := by
  have hm := Position.wanted_merge? h (Or.inl ht)
  rw [Position.wanted_merge? h (Or.inr hu)] at hm
  exact (Option.some.inj hm).symm

namespace Scan

/-- The solution that gives a triple at the positions of a scan and nothing else, if there is
one. -/
def only? (scan : Scan) (m : Store.TermTriple) : Option Solution :=
  (scan.subject.only? m.subject).bind fun a =>
    (scan.predicate.only? m.predicate).bind fun b =>
      (scan.object.only? m.object).bind fun c =>
        (merge? a b).bind fun ab => merge? ab c

/-- The solutions that give a stored triple at the positions of a scan and nothing else. -/
def table (s : Store) (scan : Scan) : List Solution :=
  (s.matching none none none).filterMap scan.only?

variable {s : Store} {scan : Scan} {m : Store.TermTriple}

/-- A triple is accepted by merging the row with the terms of the triple. -/
theorem accept?_eq_bind (h : m.Agrees (scan.subject.wanted row) (scan.predicate.wanted row)
    (scan.object.wanted row)) :
    scan.accept? row m = (scan.only? m).bind (merge? row) := by
  obtain ⟨hsub, hpred, hobj⟩ := h
  obtain ⟨a, ha⟩ := Position.exists_only? hsub
  obtain ⟨b, hb⟩ := Position.exists_only? hpred
  obtain ⟨c, hc⟩ := Position.exists_only? hobj
  have hsteps : scan.accept? row m =
      (merge? row a).bind fun ra => (merge? ra b).bind fun rab => merge? rab c := by
    unfold accept?
    simp only [Position.accept?_eq_merge? ha, Position.accept?_eq_merge? hb,
      Position.accept?_eq_merge? hc]
    rfl
  have hmerges : scan.only? m = (merge? a b).bind fun ab => merge? ab c := by
    unfold only?
    rw [ha, hb, hc]
    rfl
  calc scan.accept? row m
      = (merge? row a).bind fun ra => (merge? ra b).bind fun rab => merge? rab c := hsteps
    _ = ((merge? row a).bind fun ra => merge? ra b).bind fun rab => merge? rab c := by
        rw [Option.bind_assoc]
    _ = ((merge? a b).bind fun ab => merge? row ab).bind fun rab => merge? rab c := by
        rw [merge?_assoc]
    _ = (merge? a b).bind fun ab => (merge? ab c).bind fun abc => merge? row abc := by
        simp only [Option.bind_assoc, merge?_assoc]
    _ = (scan.only? m).bind (merge? row) := by
        rw [hmerges, Option.bind_assoc]

/-- A row that can be merged with the terms of a triple agrees with the triple. -/
theorem agrees_of_bind {other : Solution} (h : (scan.only? m).bind (merge? row) = some other) :
    m.Agrees (scan.subject.wanted row) (scan.predicate.wanted row) (scan.object.wanted row) := by
  obtain ⟨abc, habc, hrow⟩ := Option.bind_eq_some_iff.mp h
  unfold only? at habc
  obtain ⟨a, ha, habc⟩ := Option.bind_eq_some_iff.mp habc
  obtain ⟨b, hb, habc⟩ := Option.bind_eq_some_iff.mp habc
  obtain ⟨c, hc, habc⟩ := Option.bind_eq_some_iff.mp habc
  obtain ⟨ab, hab, habc⟩ := Option.bind_eq_some_iff.mp habc
  have hsub : scan.subject.wanted abc = some m.subject := Position.wanted_merge? habc
    (Or.inl (Position.wanted_merge? hab (Or.inl (Position.wanted_of_only? ha))))
  have hpred : scan.predicate.wanted abc = some m.predicate := Position.wanted_merge? habc
    (Or.inl (Position.wanted_merge? hab (Or.inr (Position.wanted_of_only? hb))))
  have hobj : scan.object.wanted abc = some m.object :=
    Position.wanted_merge? habc (Or.inr (Position.wanted_of_only? hc))
  refine ⟨fun x hx => ?_, fun x hx => ?_, fun x hx => ?_⟩
  · exact Position.wanted_unique hrow hx hsub
  · exact Position.wanted_unique hrow hx hpred
  · exact Position.wanted_unique hrow hx hobj

open Classical in
/-- A lookup finds the triples that agree with the given terms among all triples. -/
theorem matching_perm_filter (hs : s.IsCoherent) (subject predicate object : Option Term) :
    (s.matching subject predicate object).Perm
      ((s.matching none none none).filter fun m => decide (m.Agrees subject predicate object)) := by
  have hall := Store.matching_nodup hs none none none
  rw [List.perm_ext_iff_of_nodup (Store.matching_nodup hs subject predicate object)
    (hall.filter _)]
  intro m
  rw [List.mem_filter, Store.mem_matching hs, Store.mem_matching hs, decide_eq_true_iff]
  constructor
  · rintro ⟨hagrees, hstored⟩
    exact ⟨⟨⟨by simp, by simp, by simp⟩, hstored⟩, hagrees⟩
  · rintro ⟨⟨-, hstored⟩, hagrees⟩
    exact ⟨hagrees, hstored⟩

/-- What a scan makes of a row is its join with the table of the scan. -/
theorem rows_perm_joinTable (hs : s.IsCoherent) (scan : Scan) (row : Solution) :
    (scan.rows s row).Perm (joinTable (scan.table s) row) := by
  classical
  unfold rows table joinTable
  refine ((matching_perm_filter hs _ _ _).filterMap _).trans (.of_eq ?_)
  rw [List.filterMap_filter, List.filterMap_filterMap]
  apply List.filterMap_congr
  intro m _
  by_cases hagrees : m.Agrees (scan.subject.wanted row) (scan.predicate.wanted row)
      (scan.object.wanted row)
  · rw [decide_eq_true hagrees, if_pos rfl]
    exact accept?_eq_bind hagrees
  · -- what the lookup leaves out cannot be merged with the row either
    rw [decide_eq_false hagrees, if_neg Bool.false_ne_true]
    cases hother : (scan.only? m).bind (merge? row) with
    | none => rfl
    | some other => exact absurd (agrees_of_bind hother) hagrees

end Scan

end RdfStore.Eval
