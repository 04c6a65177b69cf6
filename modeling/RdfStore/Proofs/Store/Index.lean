import RdfStore.Store.Index
import Std.Data.TreeSet.Lemmas
import Std.Data.TreeSet.Slice

/-!
# Ranges of an index

The keys of an index come in strictly ascending lexicographic order. A start of keys selects
exactly the keys that begin with it, and beginning with the bound positions of a lookup, in
the order that the lookup selects, is agreeing with it.
-/

set_option autoImplicit false

/-!
## Terms and their numbers correspond

The map from terms to numbers and the array of terms of a dictionary are inverse to each
other. Interning keeps that, gives the term a number, and changes no other number.
-/

namespace RdfStore.Dictionary

/-- A term has a number exactly when the number has the term. -/
def IsCoherent (d : Dictionary) : Prop := ∀ t id, d.id? t = some id ↔ d.term? id = some t

/-- No term has a number at the start. -/
theorem isCoherent_empty : empty.IsCoherent := by
  intro t id
  simp [empty, id?, term?]

variable {d : Dictionary}

/-- Numbers are smaller than the number of terms. -/
theorem lt_size_of_term? {id : Nat} {t : Term} (h : d.term? id = some t) : id < d.size := by
  unfold term? at h
  exact (Array.getElem?_eq_some_iff.mp h).1

/-- The number of a term is smaller than the number of terms. -/
theorem lt_size_of_id? (hd : d.IsCoherent) {t : Term} {id : Nat} (h : d.id? t = some id) :
    id < d.size :=
  lt_size_of_term? ((hd t id).mp h)

/-- Two terms with one number are the same. -/
theorem eq_of_id? (hd : d.IsCoherent) {t u : Term} {id : Nat} (ht : d.id? t = some id)
    (hu : d.id? u = some id) : t = u := by
  have h := (hd t id).mp ht
  rw [(hd u id).mp hu] at h
  exact (Option.some.inj h).symm

/-- Interning numbers the term and leaves all other terms as they were. -/
theorem id?_intern (d : Dictionary) (t u : Term) :
    (d.intern t).2.id? u = if u = t then some (d.intern t).1 else d.id? u := by
  unfold intern
  split
  · rename_i id h
    split
    · rename_i hu
      rw [hu, h]
    · rfl
  · rename_i h
    show (d.ids.insert t d.terms.size)[u]? = _
    rw [Std.HashMap.getElem?_insert]
    by_cases hu : u = t
    · simp [hu]
    · simp [hu, Ne.symm hu, id?]

/-- The interned term has the number that was given out. -/
theorem id?_intern_self (d : Dictionary) (t : Term) :
    (d.intern t).2.id? t = some (d.intern t).1 := by
  rw [id?_intern, if_pos rfl]

/-- Numbers are never taken back. -/
theorem id?_intern_of_id? {t u : Term} {id : Nat} (h : d.id? u = some id) :
    (d.intern t).2.id? u = some id := by
  rw [id?_intern]
  split
  · rename_i hu
    subst hu
    unfold intern
    rw [h]
  · exact h

/-- Only the interned term can be new. -/
theorem id?_of_id?_intern {t u : Term} {id : Nat} (h : (d.intern t).2.id? u = some id) :
    u = t ∨ d.id? u = some id := by
  rw [id?_intern] at h
  split at h
  · rename_i hu
    exact Or.inl hu
  · exact Or.inr h

/-- Interning keeps terms and numbers inverse to each other. -/
theorem isCoherent_intern (hd : d.IsCoherent) (t : Term) : (d.intern t).2.IsCoherent := by
  cases ht : d.id? t with
  | some id =>
    have he : (d.intern t).2 = d := by
      unfold intern
      rw [ht]
    rw [he]
    exact hd
  | none =>
    have hnum : (d.intern t).1 = d.terms.size := by
      unfold intern
      rw [ht]
    have hterms : (d.intern t).2.terms = d.terms.push t := by
      unfold intern
      rw [ht]
    intro u id
    rw [id?_intern, hnum]
    unfold term?
    rw [hterms, Array.getElem?_push]
    by_cases hu : u = t
    · subst hu
      rw [if_pos rfl]
      by_cases hid : id = d.terms.size
      · simp [hid]
      · have hold : d.terms[id]? ≠ some u := by
          intro h
          rw [(hd u id).mpr h] at ht
          cases ht
        simp [hid, hold, Ne.symm hid]
    · rw [if_neg hu, hd u id]
      by_cases hid : id = d.terms.size
      · have hnone : d.term? id = none := by
          unfold term?
          rw [Array.getElem?_eq_none_iff]
          omega
        rw [if_pos hid, hnone]
        simp [Ne.symm hu]
      · simp [hid, term?]

end RdfStore.Dictionary

namespace RdfStore

namespace Key

/-- The order of keys is transitive, as a lexicographic order of transitive ones. -/
instance : Std.TransCmp order :=
  inferInstanceAs (Std.TransCmp (compareLex (compareOn fun k : Key => k.1)
    (compareLex (compareOn fun k => k.2.1) (compareOn fun k => k.2.2))))

/-- Only equal keys stand at one place. -/
instance : Std.LawfulEqCmp order where
  eq_of_compare {a b} h := by
    simp only [order, compareLex, compareOn, Ordering.then_eq_eq, Nat.compare_eq_eq] at h
    exact Prod.ext h.1 (Prod.ext h.2.1 h.2.2)

/-- A key is smaller at the first number in which two differ. -/
theorem order_eq_lt {a b : Key} :
    order a b = .lt ↔ a.1 < b.1 ∨
      a.1 = b.1 ∧ (a.2.1 < b.2.1 ∨ a.2.1 = b.2.1 ∧ a.2.2 < b.2.2) := by
  simp only [order, compareLex, compareOn, Ordering.then_eq_lt, Nat.compare_eq_lt,
    Nat.compare_eq_eq]

/-- A key is not greater when it is smaller at the first difference or there is none. -/
theorem order_isLE {a b : Key} :
    (order a b).isLE ↔ a.1 < b.1 ∨
      a.1 = b.1 ∧ (a.2.1 < b.2.1 ∨ a.2.1 = b.2.1 ∧ a.2.2 ≤ b.2.2) := by
  simp only [order, compareLex, compareOn, Ordering.isLE_then_iff_or, Nat.compare_eq_lt,
    Nat.compare_eq_eq, Nat.isLE_compare]

/-- A key is not smaller when the other one is not greater. -/
theorem order_isGE {a b : Key} : (order a b).isGE ↔ (order b a).isLE := by
  rw [@Std.OrientedCmp.eq_swap _ order _ a b, Ordering.isGE_swap]

/-- The numbers of a key, first to last. -/
def numbers (k : Key) : List Nat := [k.1, k.2.1, k.2.2]

/-- No number of a key is above a bound. -/
def IsWithin (top : Nat) (k : Key) : Prop := k.1 ≤ top ∧ k.2.1 ≤ top ∧ k.2.2 ≤ top

end Key

namespace Index

/-- An index without keys has none. -/
theorem not_mem_empty (k : Key) : k ∉ (∅ : Index) := Std.TreeSet.not_mem_emptyc

/-- The keys of an index are listed in strictly ascending order. -/
theorem toList_ascending (index : Index) :
    index.toList.Pairwise fun a b => Key.order a b = .lt :=
  Std.TreeSet.ordered_toList

/-- Filling a start up with the smallest and the largest number bounds the keys that begin
with it, and no others. -/
theorem between_fill_iff {start : List Nat} {top : Nat} {k : Key} (hlen : start.length ≤ 3)
    (hk : k.IsWithin top) :
    (Key.order (fill start 0) k).isLE ∧ (Key.order k (fill start top)).isLE ↔
      start <+: k.numbers := by
  obtain ⟨h1, h2, h3⟩ := hk
  rw [Key.order_isLE, Key.order_isLE]
  -- a position that is not given lies between 0 and `top` in every key
  match start, hlen with
  | [], _ =>
    simp [fill, Key.numbers]
    omega
  | [a], _ =>
    simp [fill, Key.numbers, List.cons_prefix_cons]
    omega
  | [a, b], _ =>
    simp [fill, Key.numbers, List.cons_prefix_cons]
    omega
  | [a, b, c], _ =>
    simp [fill, Key.numbers, List.cons_prefix_cons]
    omega

/-- Reading the range of a start is picking the keys that begin with it. -/
theorem withStart_eq_filter {index : Index} {start : List Nat} {top : Nat}
    (hlen : start.length ≤ 3) (hk : ∀ k ∈ index.toList, k.IsWithin top) :
    index.withStart start top = index.toList.filter fun k => start.isPrefixOf k.numbers := by
  unfold withStart
  rw [Std.TreeSet.toList_rcc Key.order]
  apply List.filter_congr
  intro k hmem
  rw [Bool.eq_iff_iff, decide_eq_true_iff, Key.order_isGE, between_fill_iff hlen (hk k hmem),
    List.isPrefixOf_iff_prefix]

end Index

namespace IndexOrder

/-- The triple of the key of a triple is that triple. -/
@[simp] theorem triple_key (order : IndexOrder) (t : Key) : order.triple (order.key t) = t := by
  cases order <;> rfl

/-- The key of the triple of a key is that key. -/
@[simp] theorem key_triple (order : IndexOrder) (k : Key) : order.key (order.triple k) = k := by
  cases order <;> rfl

/-- A position that is given agrees with its number only; any other agrees with all. -/
def Agrees (wanted : Option Nat) (n : Nat) : Prop := ∀ m, wanted = some m → m = n

/-- A given position agrees with one number. -/
@[simp] theorem agrees_some {m n : Nat} : Agrees (some m) n ↔ m = n := by
  simp [Agrees]

/-- An open position agrees with every number. -/
@[simp] theorem agrees_none {n : Nat} : Agrees none n := by
  simp [Agrees]

/-- The numbers that a lookup starts with fit into a key. -/
theorem length_select_le (s p o : Option Nat) : (select s p o).2.length ≤ 3 := by
  cases s <;> cases p <;> cases o <;> simp [select]

/-- Which index a lookup reads depends only on which positions are given. -/
theorem select_fst (s p o : Option Nat) :
    (select s p o).1 = forBound s.isSome p.isSome o.isSome := by
  cases s <;> cases p <;> cases o <;> rfl

/-- In the selected order, beginning with the given numbers is agreeing with every given
position. -/
theorem select_prefix_iff (s p o : Option Nat) (k : Key) :
    (select s p o).2 <+: k.numbers ↔
      Agrees s ((select s p o).1.triple k).1 ∧ Agrees p ((select s p o).1.triple k).2.1 ∧
        Agrees o ((select s p o).1.triple k).2.2 := by
  cases s <;> cases p <;> cases o <;>
    simp [select, triple, Key.numbers, List.cons_prefix_cons, and_comm]

end IndexOrder

/-! ## The numbers that lead -/

namespace Index

/-- A number leads when it is the first of some key. -/
theorem mem_leading {keys : List Key} {n : Nat} :
    n ∈ leading keys ↔ ∃ k ∈ keys, k.1 = n := by
  fun_induction leading keys with
  | case1 => simp
  | case2 k => simp [eq_comm]
  | case3 k l rest heq ih =>
    rw [ih]
    constructor
    · rintro ⟨m, hm, rfl⟩
      exact ⟨m, List.mem_cons_of_mem _ hm, rfl⟩
    · rintro ⟨m, hm, rfl⟩
      rcases List.mem_cons.mp hm with rfl | hm
      · exact ⟨l, List.mem_cons_self, heq.symm⟩
      · exact ⟨m, hm, rfl⟩
  | case4 k l rest hne ih =>
    rw [List.mem_cons, ih]
    constructor
    · rintro (rfl | ⟨m, hm, rfl⟩)
      · exact ⟨k, List.mem_cons_self, rfl⟩
      · exact ⟨m, List.mem_cons_of_mem _ hm, rfl⟩
    · rintro ⟨m, hm, rfl⟩
      rcases List.mem_cons.mp hm with rfl | hm
      · exact Or.inl rfl
      · exact Or.inr ⟨m, hm, rfl⟩

/-- First numbers do not descend along ascending keys. -/
theorem fst_le_of_order {a b : Key} (h : Key.order a b = .lt) : a.1 ≤ b.1 := by
  rw [Key.order_eq_lt] at h
  omega

/-- The numbers that lead ascending keys ascend, so each comes once. -/
theorem leading_ascending {keys : List Key}
    (h : keys.Pairwise fun a b => Key.order a b = .lt) : (leading keys).Pairwise (· < ·) := by
  fun_induction leading keys with
  | case1 => exact List.Pairwise.nil
  | case2 k => exact List.pairwise_singleton _ _
  | case3 k l rest heq ih => exact ih (List.pairwise_cons.mp h).2
  | case4 k l rest hne ih =>
    obtain ⟨hk, hrest⟩ := List.pairwise_cons.mp h
    refine List.pairwise_cons.mpr ⟨?_, ih hrest⟩
    intro n hn
    obtain ⟨m, hm, rfl⟩ := mem_leading.mp hn
    have hkl : k.1 ≤ l.1 := fst_le_of_order (hk l List.mem_cons_self)
    rcases List.mem_cons.mp hm with rfl | hm
    · omega
    · have hlm : l.1 ≤ m.1 := fst_le_of_order ((List.pairwise_cons.mp hrest).1 m hm)
      omega

example : leading [(1, 2, 3), (1, 4, 5), (2, 0, 0)] = [1, 2] := by decide

end Index

end RdfStore
