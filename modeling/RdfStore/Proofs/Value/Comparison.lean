import RdfStore.Proofs.Number.Rounding
import RdfStore.Value.Compare

/-!
# The laws of comparisons

The six comparison operators fit together: inequality is the negation of equality, the four that ask
for an order have answers for the same pairs of terms, every one of them can be read from the other
side, and of less, equal and greater exactly one holds. All this comes from the relation of two
values, which is reversed when they change places. Only a number that is written as NaN falls out
of the order, and such a number does not even equal itself.
-/

set_option autoImplicit false

namespace RdfStore

open Query Std

/-! ## Numbers -/

namespace Numeric

/-- Comparing the other way round gives the opposite. -/
theorem compare?_swap (a b : Numeric) : a.compare? b = (b.compare? a).map Ordering.swap := by
  cases a with
  | integer m =>
    cases b with
    | integer n => exact congrArg some OrientedOrd.eq_swap
    | decimal y | double y => exact Binary64.compare?_swap _ _
  | decimal x | double x => cases b <;> exact Binary64.compare?_swap _ _

/-- Numbers cannot be compared if one of them is `NaN`. -/
theorem compare?_eq_none_iff {a b : Numeric} :
    a.compare? b = none ↔
      Binary64.isNaN a.toFloat = true ∨ Binary64.isNaN b.toFloat = true := by
  cases a with
  | integer m =>
    cases b with
    | integer n => simp [compare?, toFloat, Binary64.isNaN_ofInt]
    | decimal y | double y => exact Binary64.compare?_eq_none_iff
  | decimal x | double x => cases b <;> exact Binary64.compare?_eq_none_iff

/-- A number other than `NaN` is equal to itself. -/
theorem compare?_self {a : Numeric} (h : Binary64.isNaN a.toFloat = false) :
    a.compare? a = some .eq := by
  cases a with
  | integer n => exact congrArg some compare_self
  | decimal x | double x => exact Binary64.compare?_self h

/-- A number is NaN where it is a double that is written so. -/
theorem isNaN_of_read? {kind : Kind} {text : List Char} {x : Numeric}
    (h : read? kind text = some x) :
    Binary64.isNaN x.toFloat = true ↔ kind = .double ∧ text = "NaN".toList := by
  cases kind with
  | integer =>
    obtain ⟨n, -, rfl⟩ := Option.map_eq_some_iff.mp h
    simp [toFloat, Binary64.isNaN_ofInt]
  | decimal =>
    obtain ⟨y, hy, rfl⟩ := Option.map_eq_some_iff.mp h
    simp [toFloat, Numeral.isNaN_of_decimal? hy]
  | double =>
    obtain ⟨y, hy, rfl⟩ := Option.map_eq_some_iff.mp h
    simpa [toFloat] using Numeral.isNaN_of_double? hy

/-- A literal of a datatype that is none of numbers denotes none. -/
theorem ofLiteral?_of_datatype {l : Literal} (h : Kind.ofDatatype? l.datatype = none) :
    ofLiteral? l = none := by
  unfold ofLiteral?
  rw [h]
  rfl

/-- A plain literal is no number. -/
theorem ofLiteral?_of_isPlain {l : Literal} (h : l.isPlain = true) : ofLiteral? l = none := by
  refine ofLiteral?_of_datatype ?_
  obtain ⟨value, kind⟩ := l
  cases kind with
  | plain =>
    show Kind.ofDatatype? Vocabulary.xsdString = none
    decide
  | tagged language =>
    show Kind.ofDatatype? Vocabulary.rdfLangString = none
    decide
  | typed datatype => cases h

/-- A boolean is no number. -/
theorem ofLiteral?_of_boolean {l : Literal} (h : l.datatype = Vocabulary.xsdBoolean) :
    ofLiteral? l = none := by
  refine ofLiteral?_of_datatype ?_
  rw [h]
  decide

end Numeric

/-- A double or a float that is written as NaN. -/
def Term.IsNaN : Term → Prop
  | .literal l =>
    Numeric.Kind.ofDatatype? l.datatype = some .double ∧ Text.trim l.value.toList = "NaN".toList
  | _ => False

/-- The value of such a term. -/
def Comparand.IsNaN : Comparand → Prop
  | .numeric x => Binary64.isNaN x.toFloat = true
  | _ => False

/-! ## Relations -/

namespace Relation

/-- The relation of two values that change places. -/
def swap : Relation → Relation
  | .ordered o => .ordered o.swap
  | r => r

end Relation

namespace Comparand

/-- Values that change places are related the other way. -/
theorem relate_swap (a b : Comparand) : a.relate b = (b.relate a).swap := by
  cases a <;> cases b
  case numeric.numeric a b =>
    simp only [relate]
    rw [Numeric.compare?_swap]
    cases b.compare? a <;> rfl
  case string.string a la b lb =>
    simp only [relate, eq_comm (a := la)]
    split
    · exact congrArg Relation.ordered OrientedOrd.eq_swap
    · rfl
  case boolean.boolean a b => exact congrArg Relation.ordered OrientedOrd.eq_swap
  case other.other a da b db =>
    simp only [relate, eq_comm (a := da)]
    split
    · exact congrArg Relation.ordered OrientedOrd.eq_swap
    · rfl
  case iri.iri i j =>
    simp only [relate, eq_comm (a := i)]
    split <;> rfl
  case blank.blank x y =>
    simp only [relate, eq_comm (a := x)]
    split <;> rfl
  all_goals rfl

/-- A value is equal to itself, unless it is NaN. -/
theorem relate_self {a : Comparand} (h : ¬a.IsNaN) :
    a.relate a = .ordered .eq ∨ a.relate a = .same := by
  cases a with
  | numeric x =>
    have hself := Numeric.compare?_self (eq_false_of_ne_true h)
    simp [relate, hself]
  | string value language => simp [relate]
  | boolean b => simp [relate]
  | other value datatype => simp [relate]
  | iri node => simp [relate]
  | blank node => simp [relate]

/-- The pairs of values that an order can be asked for. -/
inductive AreOrdered : Comparand → Comparand → Prop where
  | numbers (x y : Numeric) : AreOrdered (.numeric x) (.numeric y)
  | strings (a b : String) (language : Option String) :
    AreOrdered (.string a language) (.string b language)
  | booleans (a b : Bool) : AreOrdered (.boolean a) (.boolean b)
  | others (a b : String) (datatype : Iri) : AreOrdered (.other a datatype) (.other b datatype)

/-- Such a pair has an order, unless one of them is NaN. -/
theorem AreOrdered.relate_cases {a b : Comparand} (h : AreOrdered a b) :
    (∃ o, a.relate b = .ordered o) ∧ ¬(a.IsNaN ∨ b.IsNaN) ∨
      a.relate b = .unordered ∧ (a.IsNaN ∨ b.IsNaN) := by
  cases h with
  | numbers x y =>
    have hnone := @Numeric.compare?_eq_none_iff x y
    simp only [relate, IsNaN, ← hnone]
    cases x.compare? y <;> simp
  | strings a b language => simp [relate, IsNaN]
  | booleans a b => simp [relate, IsNaN]
  | others a b datatype => simp [relate, IsNaN]

/-- An order has an answer for no other pairs. -/
theorem areOrdered_of_decide? {c : Comparison} (hc : c.isEquality = false) {a b : Comparand}
    {answer : Bool} (h : c.decide? (a.relate b) = some answer) : AreOrdered a b := by
  have hdifferent : c.decide? .different = none := by simp [Comparison.decide?, hc]
  have hsame : c.decide? .same = none := by simp [Comparison.decide?, hc]
  have hincomparable : c.decide? .incomparable = none := rfl
  cases a <;> cases b
  case numeric.numeric x y => exact .numbers x y
  case string.string a la b lb =>
    simp only [relate] at h
    split at h
    · rename_i hlanguage
      exact hlanguage ▸ .strings a b la
    · rw [hdifferent] at h
      cases h
  case boolean.boolean a b => exact .booleans a b
  case other.other a da b db =>
    simp only [relate] at h
    split at h
    · rename_i hdatatype
      exact hdatatype ▸ .others a b da
    · rw [hdifferent] at h
      cases h
  case iri.iri i j =>
    simp only [relate] at h
    split at h <;> simp_all
  case blank.blank x y =>
    simp only [relate] at h
    split at h <;> simp_all
  all_goals
    simp_all [relate, isNode]

/-! ## Values of terms -/

/-- The literals that are compared as numbers are those that denote one. -/
theorem ofLiteral_eq_numeric_iff {l : Literal} {x : Numeric} :
    ofLiteral l = .numeric x ↔ Numeric.ofLiteral? l = some x := by
  constructor
  · intro h
    unfold ofLiteral at h
    split at h
    · cases h
    split at h
    · cases h
    · rename_i hx
      rw [hx, Comparand.numeric.inj h]
    · cases h
  · intro h
    have hplain : ¬l.isPlain = true := fun hplain => by
      rw [Numeric.ofLiteral?_of_isPlain hplain] at h
      cases h
    have hboolean : boolean? l = none := by
      unfold boolean?
      split
      · rename_i hdatatype
        rw [Numeric.ofLiteral?_of_boolean hdatatype] at h
        cases h
      · rfl
    unfold ofLiteral
    rw [if_neg hplain, hboolean, h]

end Comparand

/-- The terms that are written as NaN are those whose value is NaN. -/
theorem Term.isNaN_iff {t : Term} : t.IsNaN ↔ (Comparand.ofTerm t).IsNaN := by
  cases t with
  | iri node => rfl
  | blank node => rfl
  | literal l =>
    constructor
    · rintro ⟨hkind, htext⟩
      have hread : Numeric.ofLiteral? l = some (.double Binary64.nan) := by
        unfold Numeric.ofLiteral?
        rw [hkind, htext]
        rfl
      show (Comparand.ofLiteral l).IsNaN
      rw [Comparand.ofLiteral_eq_numeric_iff.mpr hread]
      show Binary64.isNaN Binary64.nan = true
      decide
    · intro h
      show _ ∧ _
      cases hvalue : Comparand.ofLiteral l with
      | numeric x =>
        rw [Comparand.ofTerm, hvalue] at h
        obtain ⟨kind, hkind, hread⟩ :=
          Option.bind_eq_some_iff.mp (Comparand.ofLiteral_eq_numeric_iff.mp hvalue)
        obtain ⟨rfl, htext⟩ := (Numeric.isNaN_of_read? hread).mp h
        exact ⟨hkind, htext⟩
      | string | boolean | other | iri | blank =>
        rw [Comparand.ofTerm, hvalue] at h
        exact h.elim

/-! ## Answers -/

namespace Query.Comparison

/-- The comparison that asks the same when the terms change places. -/
def converse : Comparison → Comparison
  | .eq => .eq
  | .ne => .ne
  | .lt => .gt
  | .le => .ge
  | .gt => .lt
  | .ge => .le

variable {c c' : Comparison} {r : Relation}

/-- Being different is the opposite of being equal, where either is decided. -/
theorem decide?_ne (r : Relation) :
    Comparison.ne.decide? r = (Comparison.eq.decide? r).map (!·) := by
  cases r with
  | ordered o => cases o <;> rfl
  | different | unordered | same | incomparable => rfl

/-- A comparison is decided like its converse the other way round. -/
theorem decide?_converse (c : Comparison) (r : Relation) :
    c.converse.decide? r.swap = c.decide? r := by
  cases r with
  | ordered o => cases c <;> cases o <;> rfl
  | different | unordered | same | incomparable => cases c <;> rfl

/-- Which relations have an answer depends only on whether the comparison asks for an order. -/
theorem decide?_eq_none_iff (h : c.isEquality = c'.isEquality) :
    c.decide? r = none ↔ c'.decide? r = none := by
  cases r <;> simp [decide?, h]

/-- Where equality is not decided no comparison is. -/
theorem decide?_of_eq (h : Comparison.eq.decide? r = none) : c.decide? r = none := by
  cases r <;> simp_all [decide?, isEquality]

/-- Being at most another is being less or equal. -/
theorem decide?_le (r : Relation) {less same : Bool} (hless : Comparison.lt.decide? r = some less)
    (hsame : Comparison.eq.decide? r = some same) :
    Comparison.le.decide? r = some (less || same) := by
  cases r with
  | ordered o =>
    obtain rfl := Option.some.inj hless
    obtain rfl := Option.some.inj hsame
    cases o <;> rfl
  | unordered =>
    obtain rfl := Option.some.inj hless
    obtain rfl := Option.some.inj hsame
    rfl
  | different | same | incomparable => cases hless

end Query.Comparison

/-- Two terms are compared like the other way round by the converse. -/
theorem compareTerms?_converse (c : Comparison) (a b : Term) :
    compareTerms? c.converse b a = compareTerms? c a b := by
  unfold compareTerms?
  rw [Comparand.relate_swap, Comparison.decide?_converse]

/-- Of ordered values one is less than the other, equal to it or greater, and only one of these; of
others none. -/
theorem count_decide? {r : Relation} {less same greater : Bool}
    (hless : Comparison.lt.decide? r = some less) (hsame : Comparison.eq.decide? r = some same)
    (hgreater : Comparison.gt.decide? r = some greater) :
    [less, same, greater].count true = 1 ↔ ∃ o, r = .ordered o := by
  cases r with
  | ordered o =>
    obtain rfl := Option.some.inj hless
    obtain rfl := Option.some.inj hsame
    obtain rfl := Option.some.inj hgreater
    cases o <;> simp [Comparison.holds]
  | unordered =>
    obtain rfl := Option.some.inj hless
    obtain rfl := Option.some.inj hsame
    obtain rfl := Option.some.inj hgreater
    simp
  | different | same | incomparable => cases hless

/-- How the six comparisons of two terms fit together. An answer is `none` where the comparison
fails. -/
structure CompareCoherently (a b : Term) : Prop where
  /-- Inequality is the negation of equality and fails where equality does. -/
  negated : compareTerms? .ne a b = (compareTerms? .eq a b).map (!·)
  /-- The comparisons that ask for an order fail together. -/
  together : ∀ c c' : Comparison, c.isEquality = false → c'.isEquality = false →
    (compareTerms? c a b = none ↔ compareTerms? c' a b = none)
  /-- Where equality fails, all of them do. -/
  wider : ∀ c : Comparison, compareTerms? .eq a b = none → compareTerms? c a b = none
  /-- Equality and inequality are symmetric. -/
  symmetric : compareTerms? .eq a b = compareTerms? .eq b a ∧
    compareTerms? .ne a b = compareTerms? .ne b a
  /-- The order can be read from the other side. -/
  reversed : compareTerms? .lt a b = compareTerms? .gt b a ∧
    compareTerms? .le a b = compareTerms? .ge b a
  /-- Less or equal is less or equal. -/
  weak : ∀ less same, compareTerms? .lt a b = some less → compareTerms? .eq a b = some same →
    compareTerms? .le a b = some (less || same)
  /-- Exactly one of less, equal and greater holds, unless NaN is involved. -/
  trichotomous : ∀ less same greater, compareTerms? .lt a b = some less →
    compareTerms? .eq a b = some same → compareTerms? .gt a b = some greater →
      ([less, same, greater].count true = 1 ↔ ¬(a.IsNaN ∨ b.IsNaN))
  /-- A term equals itself, unless it is NaN. -/
  reflexive : compareTerms? .eq a a = some true ↔ ¬a.IsNaN

/-- A term equals itself, unless it is NaN. -/
theorem compareTerms?_self {a : Term} : compareTerms? .eq a a = some true ↔ ¬a.IsNaN := by
  rw [Term.isNaN_iff]
  unfold compareTerms?
  constructor
  · intro h hnan
    have hordered : (Comparand.ofTerm a).AreOrdered (Comparand.ofTerm a) := by
      revert hnan
      cases Comparand.ofTerm a with
      | numeric x => exact fun _ => .numbers x x
      | string | boolean | other | iri | blank => exact False.elim
    rcases hordered.relate_cases with ⟨-, hnone⟩ | ⟨hrelate, -⟩
    · exact hnone (.inl hnan)
    · rw [hrelate] at h
      cases h
  · intro hnan
    rcases Comparand.relate_self hnan with h | h <;> rw [h] <;> rfl

/-- The comparisons of any two terms fit together. -/
theorem compareTerms?_coherent (a b : Term) : CompareCoherently a b where
  negated := Comparison.decide?_ne _
  together c c' hc hc' := Comparison.decide?_eq_none_iff (hc.trans hc'.symm)
  wider c h := Comparison.decide?_of_eq h
  symmetric := ⟨compareTerms?_converse .eq b a, compareTerms?_converse .ne b a⟩
  reversed := ⟨compareTerms?_converse .gt b a, compareTerms?_converse .ge b a⟩
  weak less same hless hsame := Comparison.decide?_le _ hless hsame
  trichotomous less same greater hless hsame hgreater := by
    have hordered := Comparand.areOrdered_of_decide? rfl hless
    rw [count_decide? hless hsame hgreater, Term.isNaN_iff, Term.isNaN_iff]
    rcases hordered.relate_cases with ⟨hrelate, hnone⟩ | ⟨hrelate, hnan⟩
    · exact iff_of_true hrelate hnone
    · exact iff_of_false (by rw [hrelate]; simp) (not_not_intro hnan)
  reflexive := compareTerms?_self

end RdfStore
