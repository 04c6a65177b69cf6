import Mathlib.Data.List.Nodup
import Mathlib.Data.List.Perm.Subperm
import RdfStore.Proofs.Store.Coherence
import RdfStore.Store.Blank
import Std.Data.String.ToNat

/-!
# Fresh blank nodes

A label ends in the number of its attempt, after the last `n`, so labels of different
attempts differ whatever the clock shows. Asking for a fresh blank node changes nothing but
the clock and the number of attempts, and one of as many labels as there are terms, and one
more, is not among the terms.
-/

set_option autoImplicit false

namespace RdfStore

namespace Dictionary

/-- There are no more different terms with numbers than numbers. -/
theorem length_le_size {d : Dictionary} (hd : d.IsCoherent) {terms : List Term}
    (hdistinct : terms.Nodup) (hnum : ∀ x ∈ terms, (d.id? x).isSome = true) :
    terms.length ≤ d.size := by
  have hsub : terms ⊆ d.terms.toList := by
    intro x hx
    obtain ⟨id, hid⟩ := Option.isSome_iff_exists.mp (hnum x hx)
    have hterm : d.terms[id]? = some x := (hd x id).mp hid
    exact Array.mem_toList_iff.mpr (Array.mem_of_getElem? hterm)
  have hle := (hdistinct.subperm hsub).length_le
  rwa [Array.length_toList] at hle

end Dictionary

namespace Store

/-! ## Labels -/

/-- The digits of a number are not letters. -/
theorem letter_not_mem_digits (n : Nat) : 'n' ∉ Nat.toDigits 10 n := by
  intro h
  have hdigit : Char.isDigit 'n' = true :=
    Nat.isDigit_of_mem_toDigits (by decide) (by decide) h
  exact absurd hdigit (by decide)

/-- What follows the last of some letter is determined by the whole. -/
theorem suffix_unique {c : Char} {xs ys xs' ys' : List Char} (hy : c ∉ ys) (hy' : c ∉ ys')
    (h : xs ++ c :: ys = xs' ++ c :: ys') : ys = ys' := by
  rcases List.append_eq_append_iff.mp h with ⟨mid, -, hmid⟩ | ⟨mid, -, hmid⟩
  · cases mid with
    | nil => exact (List.cons.inj hmid).2
    | cons a mid =>
      obtain ⟨-, hys⟩ := List.cons.inj hmid
      exact absurd (hys ▸ List.mem_append_right mid List.mem_cons_self) hy
  · cases mid with
    | nil => exact (List.cons.inj hmid).2.symm
    | cons a mid =>
      obtain ⟨-, hys⟩ := List.cons.inj hmid
      exact absurd (hys ▸ List.mem_append_right mid List.mem_cons_self) hy'

/-- Labels of different attempts differ, whatever the ticks. -/
theorem freshLabel_injective {tick tick' m n : Nat} (h : freshLabel tick m = freshLabel tick' n) :
    m = n := by
  have hlist := congrArg String.toList h
  simp only [freshLabel, String.toList_append, List.append_assoc, Nat.toString_eq_ofList_toDigits,
    String.toList_ofList] at hlist
  have hdigits : Nat.toDigits 10 m = Nat.toDigits 10 n := by
    have htail := List.append_cancel_left hlist
    exact suffix_unique (letter_not_mem_digits m) (letter_not_mem_digits n) htail
  rw [← @Nat.ofDigitChars_ten_toDigits m, hdigits, Nat.ofDigitChars_ten_toDigits]

example : freshLabel 255 3 = "tffn3" := by decide

/-- A blank node is named after an attempt between two counts of attempts. -/
def IsNamedWithin (low high : Nat) (node : BlankNode) : Prop :=
  ∃ tick n, low ≤ n ∧ n < high ∧ node = ⟨freshLabel tick n⟩

/-- Nodes that are named in disjoint spans differ. -/
theorem ne_of_isNamedWithin {low middle high : Nat} {a b : BlankNode}
    (ha : IsNamedWithin low middle a) (hb : IsNamedWithin middle high b) : a ≠ b := by
  obtain ⟨tick, m, -, hm, rfl⟩ := ha
  obtain ⟨tick', n, hn, -, rfl⟩ := hb
  intro h
  have hmn := freshLabel_injective (congrArg BlankNode.label h)
  omega

/-! ## Naming -/

/-- The store with another clock and another number of attempts. -/
def renamed (s : Store) (clock : Clock) (attempts : Nat) : Store :=
  { s with clock, blankCounter := attempts }

/-- The clock and the attempts say nothing about what is stored. -/
@[simp] theorem contains_renamed (s : Store) (clock : Clock) (attempts : Nat) (t : Triple) :
    (s.renamed clock attempts).contains t = s.contains t := rfl

/-- The clock and the attempts say nothing about how much is stored. -/
@[simp] theorem count_renamed (s : Store) (clock : Clock) (attempts : Nat) :
    (s.renamed clock attempts).count = s.count := rfl

/-- The clock and the attempts say nothing about coherence. -/
theorem isCoherent_renamed {s : Store} (hs : s.IsCoherent) (clock : Clock) (attempts : Nat) :
    (s.renamed clock attempts).IsCoherent :=
  ⟨hs.dictionary, hs.numbered, hs.pos, hs.osp, hs.used⟩

/-- One attempt. -/
def attempt (s : Store) : BlankNode × Store :=
  (⟨freshLabel s.clock.next s.blankCounter⟩, s.renamed s.clock.advance (s.blankCounter + 1))

/-- An attempt names after itself. -/
theorem isNamedWithin_attempt (s : Store) :
    IsNamedWithin s.blankCounter (s.blankCounter + 1) s.attempt.1 :=
  ⟨s.clock.next, s.blankCounter, Nat.le_refl _, Nat.lt_succ_self _, rfl⟩

/-- A span of attempts can begin earlier and end later. -/
theorem IsNamedWithin.mono {low low' high high' : Nat} {node : BlankNode}
    (h : IsNamedWithin low' high node) (hlow : low ≤ low') (hhigh : high ≤ high') :
    IsNamedWithin low high' node := by
  obtain ⟨tick, n, hn, hlt, rfl⟩ := h
  exact ⟨tick, n, Nat.le_trans hlow hn, Nat.lt_of_lt_of_le hlt hhigh, rfl⟩

/-- Without attempts left, the next name is taken as it is. -/
theorem freshBlankWithin_zero (s : Store) : freshBlankWithin 0 s = s.attempt := rfl

/-- With attempts left, the next name is taken unless it is known. -/
theorem freshBlankWithin_succ (fuel : Nat) (s : Store) :
    freshBlankWithin (fuel + 1) s =
      if s.containsTerm (.blank s.attempt.1) then freshBlankWithin fuel s.attempt.2
      else s.attempt := rfl

/-- Naming changes the clock and the attempts only, and names after one of the attempts. -/
theorem freshBlankWithin_spec (fuel : Nat) (s : Store) :
    ∃ clock attempts, (freshBlankWithin fuel s).2 = s.renamed clock attempts ∧
      IsNamedWithin s.blankCounter attempts (freshBlankWithin fuel s).1 := by
  -- an attempt changes the clock and the attempts only, so the next one starts from the same data
  induction fuel generalizing s with
  | zero =>
    rw [freshBlankWithin_zero]
    exact ⟨_, _, rfl, isNamedWithin_attempt s⟩
  | succ fuel ih =>
    rw [freshBlankWithin_succ]
    split
    · obtain ⟨clock, attempts, hs, hname⟩ := ih s.attempt.2
      exact ⟨clock, attempts, hs, hname.mono (Nat.le_succ _) (Nat.le_refl _)⟩
    · exact ⟨_, _, rfl, isNamedWithin_attempt s⟩

/-- When naming ends in a known name, all names that were tried are known. -/
theorem exists_known_of_freshBlankWithin (fuel : Nat) (s : Store)
    (h : s.containsTerm (.blank (freshBlankWithin fuel s).1) = true) :
    ∃ nodes : List BlankNode, nodes.length = fuel + 1 ∧ nodes.Nodup ∧
      ∀ node ∈ nodes, s.containsTerm (.blank node) = true ∧
        ∃ attempts, IsNamedWithin s.blankCounter attempts node := by
  induction fuel generalizing s with
  | zero =>
    refine ⟨[s.attempt.1], rfl, List.nodup_singleton _, ?_⟩
    intro node hnode
    obtain rfl := List.mem_singleton.mp hnode
    exact ⟨h, _, isNamedWithin_attempt s⟩
  | succ fuel ih =>
    rw [freshBlankWithin_succ] at h
    split at h
    · rename_i hknown
      obtain ⟨nodes, hlen, hdistinct, hnodes⟩ := ih s.attempt.2 h
      refine ⟨s.attempt.1 :: nodes, by rw [List.length_cons, hlen], ?_, ?_⟩
      · refine List.nodup_cons.mpr ⟨?_, hdistinct⟩
        -- later attempts have larger numbers
        intro hmem
        obtain ⟨-, attempts, hlater⟩ := hnodes _ hmem
        exact ne_of_isNamedWithin (isNamedWithin_attempt s) hlater rfl
      · intro node hnode
        rcases List.mem_cons.mp hnode with rfl | hnode
        · exact ⟨hknown, _, isNamedWithin_attempt s⟩
        · obtain ⟨hk, attempts, hname⟩ := hnodes node hnode
          exact ⟨hk, attempts, hname.mono (Nat.le_succ _) (Nat.le_refl _)⟩
    · rename_i hunknown
      exact absurd h hunknown

/-- A fresh blank node is not among the terms of the store. -/
theorem containsTerm_freshBlank {s : Store} (hs : s.IsCoherent) :
    s.containsTerm (.blank s.freshBlank.1) = false := by
  rw [Bool.eq_false_iff]
  intro h
  obtain ⟨nodes, hlen, hdistinct, hnodes⟩ := exists_known_of_freshBlankWithin s.termCount s h
  have hterms : (nodes.map Term.blank).Nodup :=
    hdistinct.map fun _ _ heq => Term.blank.inj heq
  have hle := Dictionary.length_le_size hs.dictionary hterms (by
    intro x hx
    obtain ⟨node, hnode, rfl⟩ := List.mem_map.mp hx
    exact (hnodes node hnode).1)
  rw [List.length_map, hlen] at hle
  unfold termCount at hle
  omega

/-- Asking for a fresh blank node changes the clock and the attempts only, and names it after
one of the attempts. -/
theorem freshBlank_spec (s : Store) :
    ∃ clock attempts, s.freshBlank.2 = s.renamed clock attempts ∧
      IsNamedWithin s.blankCounter attempts s.freshBlank.1 :=
  freshBlankWithin_spec s.termCount s

end Store

end RdfStore
