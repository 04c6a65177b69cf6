import RdfStore.Eval.Answer
import RdfStore.Proofs.Sorting.Long
import RdfStore.Proofs.Value.SortAgreement

/-!
# Sorted solutions

`ORDER BY` gives the rows that it gets, each as often as it got it, in the lexicographic order of
its conditions, and rows that tie on all of them in the order in which they came. There is only one
list like this, so it does not matter how it is found. This is about keys without a knot, of which
integers alone have none: the order of sort keys is not transitive where integers meet decimals or
doubles, and then the sort keeps the rows if it ends, but it need not end. Of two rows the one with
the lesser first key comes first, apart from the booleans `false` and `1`.
-/

set_option autoImplicit false

namespace RdfStore

open Std Sorting

/-! ## Keys without fractions -/

/-- A literal of a datatype whose values are held as doubles: a decimal, a double or a float. -/
def Term.isFractional : Term → Bool
  | .literal l => (Numeric.Kind.ofDatatype? l.datatype).any (· != .integer)
  | _ => false

/-- A literal that is read as a fraction is a fractional term. -/
theorem Literal.IsFraction.isFractional {l : Literal} (h : l.IsFraction) :
    (Term.literal l).isFractional = true := by
  obtain ⟨kind, hkind, hother⟩ := h.exists_kind
  simp [Term.isFractional, hkind, hother]

variable {a b c : Option Term}

/-- The third sort key of a knot is a fraction. -/
theorem not_isKnot (hc : ∀ t ∈ c, t.isFractional = false) : ¬IsKnot a b c := by
  rintro ⟨x, y, z, -, -, rfl, hknot⟩
  have hfraction := hknot.fraction.isFractional
  rw [hc _ rfl] at hfraction
  cases hfraction

namespace Eval

open Query

/-! ## Rows -/

/-- The order of two rows by one key; a descending key turns it round. -/
def SortKey.order (key : SortKey) (a b : Solution) : Ordering :=
  if key.ascending then sortOrder (key.value a) (key.value b)
  else sortOrder (key.value b) (key.value a)

/-- Two rows whose keys are all equal. -/
def AreTied (keys : List SortKey) (a b : Solution) : Prop :=
  ∀ key ∈ keys, sortOrder (key.value a) (key.value b) = .eq

instance (keys : List SortKey) (a b : Solution) : Decidable (AreTied keys a b) :=
  inferInstanceAs (Decidable (∀ key ∈ keys, _))

/-- The first key on which two rows differ puts the first one before the second. -/
def Precedes (keys : List SortKey) (a b : Solution) : Prop :=
  ∃ front key back, keys = front ++ key :: back ∧ AreTied front a b ∧ key.order a b = .lt

/-- The list has the rows of another, each as often, in the lexicographic order of the keys, and
ties as they were. -/
structure IsSortedBy (keys : List SortKey) (rows out : List Solution) : Prop where
  perm : out.Perm rows
  ordered : out.Pairwise fun a b => Precedes keys a b ∨ AreTied keys a b
  stable : ∀ row ∈ rows, out.filter (AreTied keys row) = rows.filter (AreTied keys row)

/-- The order of two rows by all keys. -/
def compareRows (keys : List SortKey) (a b : Solution) : Ordering :=
  compareKeys keys (keys.map fun key => key.value a) (keys.map fun key => key.value b)

section Rows

variable {keys : List SortKey} {key : SortKey} {a b : Solution}

/-- Rows the other way round stand the other way round by a key. -/
theorem SortKey.order_swap (key : SortKey) (a b : Solution) :
    key.order a b = (key.order b a).swap := by
  unfold SortKey.order
  split <;> exact sortOrder_swap _ _

/-- A key sees no difference between rows if their values are equal in the order. -/
theorem SortKey.order_eq_iff :
    key.order a b = .eq ↔ sortOrder (key.value a) (key.value b) = .eq := by
  unfold SortKey.order
  split
  · rfl
  · rw [sortOrder_swap]
    cases sortOrder (key.value a) (key.value b) <;> simp

/-- Rows are tied by some keys if they are by the first and by the others. -/
theorem areTied_cons :
    AreTied (key :: keys) a b ↔ key.order a b = .eq ∧ AreTied keys a b := by
  rw [SortKey.order_eq_iff]
  exact List.forall_mem_cons

/-- Without keys no row comes before another. -/
theorem not_precedes_nil : ¬Precedes [] a b := by
  rintro ⟨front, key, back, hkeys, -⟩
  exact absurd hkeys.symm (List.append_ne_nil_of_right_ne_nil _ (List.cons_ne_nil _ _))

/-- A row comes before another by the first key, or by the others if the first sees no difference.
-/
theorem precedes_cons :
    Precedes (key :: keys) a b ↔
      key.order a b = .lt ∨ key.order a b = .eq ∧ Precedes keys a b := by
  constructor
  · rintro ⟨front, first, back, hkeys, htied, hfirst⟩
    cases front with
    | nil =>
      obtain ⟨rfl, -⟩ := List.cons.inj hkeys
      exact .inl hfirst
    | cons other front =>
      obtain ⟨rfl, rfl⟩ := List.cons.inj hkeys
      obtain ⟨heq, htied⟩ := areTied_cons.mp htied
      exact .inr ⟨heq, front, first, back, rfl, htied, hfirst⟩
  · rintro (hfirst | ⟨heq, front, first, back, rfl, htied, hfirst⟩)
    · exact ⟨[], key, keys, rfl, nofun, hfirst⟩
    · exact ⟨key :: front, first, back, rfl, areTied_cons.mpr ⟨heq, htied⟩, hfirst⟩

/-! ## Comparing rows -/

/-- Comparing by some keys is comparing by the first and then by the others. -/
theorem compareRows_cons (key : SortKey) (keys : List SortKey) :
    compareRows (key :: keys) = compareLex key.order (compareRows keys) := by
  funext a b
  unfold compareRows compareLex SortKey.order
  rw [List.map_cons, List.map_cons, compareKeys, ← sortOrder_swap]

/-- The comparison sees no difference between rows that are tied, and only between these. -/
theorem compareRows_eq_iff : compareRows keys a b = .eq ↔ AreTied keys a b := by
  induction keys with
  | nil => exact iff_of_true rfl nofun
  | cons key keys ih => rw [compareRows_cons, compareLex_eq_eq, ih, areTied_cons]

/-- By the comparison a row is less than those that it precedes. -/
theorem compareRows_lt_iff : compareRows keys a b = .lt ↔ Precedes keys a b := by
  induction keys with
  | nil => exact iff_of_false nofun not_precedes_nil
  | cons key keys ih =>
    rw [compareRows_cons, precedes_cons, ← ih]
    exact Ordering.then_eq_lt

/-- By the comparison a row is at most those that it precedes or is tied with. -/
theorem isLE_compareRows_iff :
    (compareRows keys a b).isLE = true ↔ Precedes keys a b ∨ AreTied keys a b := by
  rw [← compareRows_lt_iff, ← compareRows_eq_iff]
  cases compareRows keys a b <;> simp

/-- A list that is sorted by keys is a stable sort by the comparison. -/
theorem isSortedBy_iff {rows out : List Solution} :
    IsSortedBy keys rows out ↔ IsStableSort (compareRows keys) rows out := by
  have htied : ∀ row : Solution, (fun other => decide (AreTied keys row other)) =
      fun other => compareRows keys row other == .eq := by
    intro row
    funext other
    rw [← decide_eq_decide.mpr compareRows_eq_iff]
    rfl
  constructor
  · intro h
    refine ⟨h.perm, h.ordered.imp isLE_compareRows_iff.mpr, fun row hrow => ?_⟩
    rw [← htied]
    exact h.stable row hrow
  · intro h
    refine ⟨h.perm, h.ordered.imp isLE_compareRows_iff.mp, fun row hrow => ?_⟩
    rw [htied]
    exact h.stable row hrow

instance (key : SortKey) : OrientedCmp key.order := ⟨key.order_swap _ _⟩

instance compareRows_oriented (keys : List SortKey) : OrientedCmp (compareRows keys) := by
  induction keys with
  | nil => exact ⟨rfl⟩
  | cons key keys ih =>
    rw [compareRows_cons]
    infer_instance

/-- The rows have no fractions among their keys. -/
def HaveExactKeys (keys : List SortKey) (rows : List Solution) : Prop :=
  ∀ row ∈ rows, ∀ key ∈ keys, ∀ t ∈ key.value row, t.isFractional = false

/-- No three of the rows have a knot in one of the keys. -/
def HaveNoKnot (keys : List SortKey) (rows : List Solution) : Prop :=
  ∀ key ∈ keys, ∀ a ∈ rows, ∀ b ∈ rows, ∀ c ∈ rows,
    ¬IsKnot (key.value a) (key.value b) (key.value c)

variable {rows : List Solution}

/-- Where no key is a fraction there is no knot. -/
theorem HaveExactKeys.haveNoKnot (h : HaveExactKeys keys rows) : HaveNoKnot keys rows :=
  fun key hkey _ _ _ _ c hc => not_isKnot (h c hc key hkey)

/-- Keys that never follow each other in a circle have no knot. -/
theorem haveNoKnot_of_acyclic
    (h : ∀ key ∈ keys, ∀ a ∈ rows, ∀ b ∈ rows, ∀ c ∈ rows,
      sortOrder (key.value a) (key.value b) = .lt → sortOrder (key.value b) (key.value c) = .lt →
        sortOrder (key.value c) (key.value a) ≠ .lt) : HaveNoKnot keys rows := by
  intro key hkey a ha b hb c hc hknot
  obtain ⟨hab, hbc, hca⟩ := hknot.cycle
  exact h key hkey a ha b hb c hc hab hbc hca

/-- Without a knot the order by one key is transitive on the rows. -/
theorem SortKey.order_trans (h : HaveNoKnot [key] rows) : IsTransOn key.order (· ∈ rows) := by
  intro a b c ha hb hc hab hbc
  have hnone := h key (List.mem_singleton_self key)
  -- a step through three keys that is no step from the first to the last makes a knot of them
  have hstep : ∀ x ∈ rows, ∀ y ∈ rows, ∀ z ∈ rows,
      (sortOrder (key.value x) (key.value y)).isLE = true →
      (sortOrder (key.value y) (key.value z)).isLE = true →
      (sortOrder (key.value x) (key.value z)).isLE = true := by
    intro x hx y hy z hz hxy hyz
    rcases sortOrder_trans_or_knot hxy hyz with hxz | hknot | hknot | hknot
    · exact hxz
    · exact absurd hknot (hnone x hx y hy z hz)
    · exact absurd hknot (hnone y hy z hz x hx)
    · exact absurd hknot (hnone z hz x hx y hy)
  unfold SortKey.order at hab hbc ⊢
  by_cases hascending : key.ascending = true
  · rw [if_pos hascending] at hab hbc ⊢
    exact hstep a ha b hb c hc hab hbc
  · rw [if_neg hascending] at hab hbc ⊢
    exact hstep c hc b hb a ha hbc hab

/-- Without a knot the comparison of rows is transitive on them. -/
theorem compareRows_trans (h : HaveNoKnot keys rows) :
    IsTransOn (compareRows keys) (· ∈ rows) := by
  induction keys with
  | nil => exact fun _ _ _ _ _ _ _ _ => rfl
  | cons key keys ih =>
    have hfirst : HaveNoKnot [key] rows := fun first hkey =>
      h first (List.mem_singleton.mp hkey ▸ List.mem_cons_self)
    rw [compareRows_cons]
    exact (SortKey.order_trans hfirst).lex (ih fun other hkey => h other (List.mem_cons_of_mem _ hkey))

/-! ## The sort -/

instance compareKeys_oriented (keys : List SortKey) : OrientedCmp (compareKeys keys) := by
  refine ⟨fun {as bs} => ?_⟩
  induction keys generalizing as bs with
  | nil => rfl
  | cons key keys ih =>
    cases as with
    | nil => cases bs <;> rfl
    | cons a as =>
      cases bs with
      | nil => rfl
      | cons b bs =>
        rw [compareKeys, compareKeys, Ordering.swap_then, ← ih, sortOrder_swap a b]
        split <;> rfl

instance compareKeyed_oriented (keys : List SortKey) : OrientedCmp (compareKeyed keys) :=
  ⟨fun {a b} => @OrientedCmp.eq_swap _ (compareKeys keys) _ a.1 b.1⟩

/-- A sort that ends keeps the rows. -/
theorem sortRows?_perm {out : List Solution} (h : sortRows? keys rows = some out) :
    out.Perm rows := by
  obtain ⟨sorted, hsorted, rfl⟩ := Option.map_eq_some_iff.mp h
  have hperm := (stableSort?_perm hsorted).map Prod.snd
  rw [List.map_map] at hperm
  simpa [Function.comp_def, keyed] using hperm

/-- Sorting permutes rows. -/
theorem sortRows_perm (keys : List SortKey) (rows : List Solution) :
    (sortRows keys rows).Perm rows := by
  unfold sortRows
  cases hout : sortRows? keys rows with
  | none => exact .refl rows
  | some out => exact sortRows?_perm hout

/-- Few rows are always sorted to the end. -/
theorem length_of_sortRows?_eq_none (h : sortRows? keys rows = none) : 20 < rows.length := by
  have hlength := length_of_stableSort?_eq_none (Option.map_eq_none_iff.mp h)
  rwa [List.length_map] at hlength

/-- Without a knot the sort ends, with the rows in the order of their keys. -/
theorem exists_sortRows? (h : HaveNoKnot keys rows) :
    ∃ out, sortRows? keys rows = some out ∧ IsSortedBy keys rows out := by
  have htrans : IsTransOn (compareKeyed keys) (· ∈ rows.map (keyed keys)) := by
    intro a b c ha hb hc
    obtain ⟨row, hrow, rfl⟩ := List.mem_map.mp ha
    obtain ⟨other, hother, rfl⟩ := List.mem_map.mp hb
    obtain ⟨third, hthird, rfl⟩ := List.mem_map.mp hc
    exact compareRows_trans h hrow hother hthird
  obtain ⟨out, hout, hsorted⟩ := exists_stableSort? htrans
  refine ⟨out.map Prod.snd, by rw [sortRows?, hout]; rfl, isSortedBy_iff.mpr ?_⟩
  -- the values that were computed for the rows compare as the rows do
  have hrows : IsStableSort (fun a b => compareRows keys a.2 b.2) (rows.map (keyed keys)) out := by
    refine hsorted.congr fun a ha b hb => ?_
    obtain ⟨row, -, rfl⟩ := List.mem_map.mp ha
    obtain ⟨other, -, rfl⟩ := List.mem_map.mp hb
    rfl
  have hmap := hrows.map Prod.snd
  rw [List.map_map] at hmap
  simpa [Function.comp_def, keyed] using hmap

/-- Rows whose keys have no knot are put in order, and ties stay as they stood. -/
theorem isSortedBy_sortRows (h : HaveNoKnot keys rows) :
    IsSortedBy keys rows (sortRows keys rows) := by
  obtain ⟨out, hout, hsorted⟩ := exists_sortRows? h
  unfold sortRows
  rw [hout]
  exact hsorted

/-- The rows in order, with ties as they stood, are one list only. -/
theorem IsSortedBy.unique {out other : List Solution} (h : IsSortedBy keys rows out)
    (h' : IsSortedBy keys rows other) : out = other :=
  (isSortedBy_iff.mp h).unique (isSortedBy_iff.mp h')

end Rows

/-! ## The operator -/

/-- What is taken as a whole is read to its end first. -/
theorem toList_whole {ε α β : Type} (c : Cursor ε α) (f : List α → List β) :
    (c.whole f).toList = c.toList.map f := by
  have hrows : (c.whole f).rows = Rows.ofExcept (c.rows.toExcept.map f) := rfl
  rw [Cursor.toList_eq_rows, Cursor.toList_eq_rows, hrows]
  cases c.rows.toExcept with
  | error e => rfl
  | ok list => exact Rows.toExcept_ofList (f list)

/-- A drained sort is the sort of what the input drains to. -/
theorem toList_sorted (env : Env) (m : Modifiers) (input : SolutionCursor) :
    (sorted env m input).toList = input.toList.map (sortRows (sortKeys env m)) := by
  unfold sorted
  split
  · rename_i hempty
    have hsame : sortRows (sortKeys env m) = id := by
      funext rows
      unfold sortKeys
      rw [List.isEmpty_iff.mp hempty]
      have hid : IsSortedBy [] rows rows :=
        isSortedBy_iff.mpr (.refl (List.pairwise_of_forall fun _ _ => rfl))
      have hnone : HaveNoKnot [] rows := fun _ hkey => absurd hkey List.not_mem_nil
      exact (isSortedBy_sortRows hnone).unique hid
    rw [hsame]
    cases input.toList <;> rfl
  · exact toList_whole input _

/-- For every list of conditions and all rows that come in without a fraction among their keys, what
comes out has these rows in the lexicographic order of the conditions, with ties as they came; and
no other list is like this. -/
theorem sorted_isSortedBy {env : Env} {m : Modifiers} {input : SolutionCursor}
    {rows : List Solution} (hrows : input.toList = .ok rows)
    (hkeys : HaveExactKeys (sortKeys env m) rows) :
    ∃ out, (sorted env m input).toList = .ok out ∧ IsSortedBy (sortKeys env m) rows out ∧
      ∀ other, IsSortedBy (sortKeys env m) rows other → other = out := by
  have hsorted := isSortedBy_sortRows hkeys.haveNoKnot
  refine ⟨sortRows (sortKeys env m) rows, ?_, hsorted, fun other hother => hother.unique hsorted⟩
  rw [toList_sorted, hrows]
  rfl

/-- Rows over a number and a word, two of them with one number and one without any. -/
def scores : List Solution :=
  let score := fun n word => [some (.literal (Literal.ofInt n)), some (.literal (.plain word))]
  [score 2 "b", [none, some (.literal (.plain "c"))], score 2 "a", score 10 "d"]

/-- The greatest numbers first, and then by a sum that no row has. -/
def greatestFirst : Modifiers where
  orderBy := [⟨false, .var "n"⟩, ⟨true, .binary (.calculate .add) (.var "n") (.var "word")⟩]
  limit := none
  offset := 0

/-- The rows are sorted, with ties also under a descending condition as they came. -/
theorem sorted_isSortedBy_scores :
    let env : Env := ⟨.empty ⟨0, 1⟩, ["n", "word"]⟩
    let keys := sortKeys env greatestFirst
    (Cursor.ofList scores : SolutionCursor).toList = .ok scores ∧ HaveExactKeys keys scores ∧
      ∃ out, (sorted env greatestFirst (.ofList scores)).toList = .ok out ∧
        IsSortedBy keys scores out ∧ ∀ other, IsSortedBy keys scores other → other = out := by
  intro env keys
  have hrows : (Cursor.ofList scores : SolutionCursor).toList = .ok scores := by
    rw [Cursor.toList_eq_rows]
    exact Rows.toExcept_ofList scores
  have hkeys : HaveExactKeys keys scores := by
    unfold HaveExactKeys
    decide
  exact ⟨hrows, hkeys, sorted_isSortedBy hrows hkeys⟩

/-! ## Sorting and less-than -/

/-- A row whose ascending first key is less comes first, unless the keys are inverted booleans. -/
theorem precedes_of_less {key : SortKey} {keys : List SortKey} (hascending : key.ascending = true)
    {a b : Solution} {s t : Term} (hs : key.value a = some s) (ht : key.value b = some t)
    (hless : compareTerms? .lt s t = some true) (hstraight : ¬IsInverted s t) :
    Precedes (key :: keys) a b := by
  refine precedes_cons.mpr (.inl ?_)
  unfold SortKey.order
  rw [if_pos hascending, hs, ht, sortOrder_of_less hless, if_neg hstraight]

/-- No row is both before and after another. -/
theorem not_precedes_of_ordered {keys : List SortKey} {a b : Solution}
    (h : Precedes keys a b ∨ AreTied keys a b) : ¬Precedes keys b a := by
  have hswap : compareRows keys b a = (compareRows keys a b).swap := OrientedCmp.eq_swap
  rw [← isLE_compareRows_iff] at h
  rw [← compareRows_lt_iff, hswap]
  cases hcompare : compareRows keys a b <;> simp_all

/-- A term that is less than another is sorted before it, except that the boolean `1` is sorted
before `false`. So no row is put before another whose ascending first key is less, except for these
two; the keys must be free of knots, since otherwise the rows may have no order. -/
theorem less_sortsFirst {s t : Term} (hless : compareTerms? .lt s t = some true) :
    sortOrder (some s) (some t) = (if IsInverted s t then .gt else .lt) ∧
      ∀ (key : SortKey) (keys : List SortKey) (rows : List Solution), key.ascending = true →
        HaveNoKnot (key :: keys) rows →
          (sortRows (key :: keys) rows).Pairwise fun a b =>
            key.value a = some t → key.value b = some s → IsInverted s t := by
  refine ⟨sortOrder_of_less hless, fun key keys rows hascending hkeys => ?_⟩
  refine (isSortedBy_sortRows hkeys).ordered.imp fun hordered ht hs => ?_
  refine Classical.byContradiction fun hstraight => ?_
  exact not_precedes_of_ordered hordered (precedes_of_less hascending hs ht hless hstraight)

/-- Rows over numbers of three datatypes. -/
def marks : List Solution :=
  let mark := fun text datatype => [some (.literal ⟨text, .typed datatype⟩)]
  [mark "1e1" Vocabulary.xsdDouble, mark " 09 " Literal.xsdByte, mark "9.5" Vocabulary.xsdDecimal]

/-- The byte `09` is less than the double `1e1` and sorted before it, also in rows with a decimal. -/
theorem less_sortsFirst_numbers :
    let nine : Term := .literal ⟨" 09 ", .typed Literal.xsdByte⟩
    let ten : Term := .literal ⟨"1e1", .typed Vocabulary.xsdDouble⟩
    let byNumber : SortKey := ⟨true, Valuation.var ["n"] "n"⟩
    (compareTerms? .lt nine ten = some true ∧ sortOrder (some nine) (some ten) = .lt) ∧
      HaveNoKnot [byNumber] marks ∧ (sortRows [byNumber] marks).Pairwise fun a b =>
        byNumber.value a = some ten → byNumber.value b ≠ some nine := by
  intro nine ten byNumber
  have hnine : compareTerms? .lt nine ten = some true := by decide
  have hstraight : ¬IsInverted nine ten := by decide
  have hkeys : HaveNoKnot [byNumber] marks := haveNoKnot_of_acyclic (by decide)
  have hfirst := less_sortsFirst hnine
  rw [if_neg hstraight] at hfirst
  refine ⟨⟨hnine, hfirst.1⟩, hkeys, ?_⟩
  exact (hfirst.2 byNumber [] marks rfl hkeys).imp fun h ha hb => hstraight (h ha hb)

end Eval

end RdfStore
