import RdfStore.Proofs.Number.Rounding
import RdfStore.Value.Compare

/-!
# The order of sort keys

Literals are sorted by what they denote, and alike ones by how they are written. Integers are
compared exactly, but with other numbers as their nearest doubles. So the order has a cycle where
the exact values of two integers and the datatypes of both and of a third number, all with one
nearest double, disagree. There is no other: apart from these cycles it is a total order.
-/

set_option autoImplicit false

namespace RdfStore

open Std

namespace Literal

/-! ## How literals are written -/

/-- The order of literals by datatype, language and lexical form. -/
def writtenOrder : Literal → Literal → Ordering :=
  compareLex (compareOn fun l => l.datatype.text) (compareLex (compareOn language?) (compareOn value))

instance : TransCmp writtenOrder :=
  inferInstanceAs (TransCmp (compareLex (compareOn fun l => l.datatype.text)
    (compareLex (compareOn language?) (compareOn value))))

/-- Literals the other way round are the other way round by how they are written. -/
theorem writtenOrder_swap (a b : Literal) : writtenOrder a b = (writtenOrder b a).swap :=
  OrientedCmp.eq_swap

/-- Literals are sorted by value and then by how they are written. -/
theorem sortOrder_eq_then (a b : Literal) :
    a.sortOrder b = (a.valueOrder b).then (writtenOrder a b) := rfl

/-- Not a plain literal written with its datatype. -/
def IsCanonical (l : Literal) : Prop := l.kind ≠ .typed Vocabulary.xsdString

/-- A literal with a datatype has one form only. -/
theorem isCanonical_typed (value : String) (datatype : Iri) :
    (typed value datatype).IsCanonical := by
  unfold typed
  split
  · nofun
  · rename_i hdatatype
    exact fun h => hdatatype (LiteralKind.typed.inj h)

variable {a b c : Literal}

/-- With one datatype and one language there is one kind. -/
theorem kind_eq_of_datatype (ha : a.IsCanonical) (hb : b.IsCanonical)
    (hdatatype : a.datatype = b.datatype) (hlanguage : a.language? = b.language?) :
    a.kind = b.kind := by
  obtain ⟨value, kind⟩ := a
  obtain ⟨other, kind'⟩ := b
  cases kind <;> cases kind' <;> simp_all [IsCanonical, datatype, language?]

/-- Literals that are written alike are the same. -/
theorem writtenOrder_eq_iff (ha : a.IsCanonical) (hb : b.IsCanonical) :
    writtenOrder a b = .eq ↔ a = b := by
  constructor
  · intro h
    obtain ⟨hdatatype, h⟩ := Ordering.then_eq_eq.mp h
    obtain ⟨hlanguage, hvalue⟩ := Ordering.then_eq_eq.mp h
    have hdatatype : a.datatype = b.datatype :=
      congrArg Iri.mk (LawfulEqOrd.eq_of_compare hdatatype)
    have hlanguage : a.language? = b.language? :=
      LawfulEqOrd.eq_of_compare hlanguage
    have hvalue : a.value = b.value := LawfulEqOrd.eq_of_compare hvalue
    have hkind := kind_eq_of_datatype ha hb hdatatype hlanguage
    cases a
    cases b
    simp_all
  · rintro rfl
    exact ReflCmp.compare_self

/-! ## What literals denote -/

/-- The exact value of an integer. -/
def integer? (l : Literal) : Option Int :=
  match Numeric.ofLiteral? l with
  | some (.integer n) => some n
  | _ => none

/-- The place of the nearest double; literals that are no numbers have none. -/
def nearest (l : Literal) : Int :=
  match Numeric.ofLiteral? l with
  | some x => Binary64.totalKey x.toFloat
  | none => 0

/-- The order of families and of nearest doubles. -/
def roughOrder : Literal → Literal → Ordering :=
  compareLex (compareOn family) (compareOn nearest)

instance : TransCmp roughOrder :=
  inferInstanceAs (TransCmp (compareLex (compareOn family) (compareOn nearest)))

/-- The order within a family and a nearest double. -/
def fineOrder (a b : Literal) : Ordering :=
  match a.integer?, b.integer? with
  | some m, some n => (compare m n).then (writtenOrder a b)
  | _, _ =>
    if a.family = 0 then writtenOrder a b else (compare a.value b.value).then (writtenOrder a b)

/-- The first family is that of the numbers. -/
theorem family_eq_zero {l : Literal} : l.family = 0 ↔ (Numeric.ofLiteral? l).isSome = true := by
  unfold family
  split
  · simp_all
  split
  · simp_all
  split <;> simp_all

/-- Literals that are not both numbers are ordered by family and lexical form. -/
theorem valueOrder_eq_family (h : a.family ≠ 0 ∨ b.family ≠ 0) :
    a.valueOrder b = (compare a.family b.family).then (compare a.value b.value) := by
  rw [ne_eq, ne_eq, family_eq_zero, family_eq_zero] at h
  unfold valueOrder
  split <;> simp_all

/-- Numbers of which one is no integer are ordered by their nearest doubles. -/
theorem valueOrder_eq_nearest (ha : a.family = 0) (hb : b.family = 0)
    (h : a.integer? = none ∨ b.integer? = none) :
    a.valueOrder b = compare a.nearest b.nearest := by
  obtain ⟨x, hx⟩ := Option.isSome_iff_exists.mp (family_eq_zero.mp ha)
  obtain ⟨y, hy⟩ := Option.isSome_iff_exists.mp (family_eq_zero.mp hb)
  unfold integer? at h
  unfold valueOrder nearest
  rw [hx, hy] at h ⊢
  cases x <;> cases y <;> first | rfl | simp at h

/-- A literal has an integer if it is read as this number. -/
theorem integer?_eq_some {l : Literal} {n : Int} :
    l.integer? = some n ↔ Numeric.ofLiteral? l = some (.integer n) := by
  unfold integer?
  split <;> simp_all

/-- Integers are of the family of numbers. -/
theorem family_of_integer {l : Literal} {n : Int} (h : l.integer? = some n) : l.family = 0 := by
  rw [family_eq_zero, integer?_eq_some.mp h]
  rfl

/-- Outside the family of numbers nothing is nearest. -/
theorem nearest_of_other {l : Literal} (h : l.family ≠ 0) : l.nearest = 0 := by
  rw [ne_eq, family_eq_zero] at h
  unfold nearest
  split <;> simp_all

/-- The nearest double of an integer is the rounded one. -/
theorem nearest_of_integer {l : Literal} {n : Int} (h : l.integer? = some n) :
    l.nearest = Binary64.totalKey (Binary64.ofInt n) := by
  unfold nearest
  rw [integer?_eq_some.mp h]
  rfl

/-- Comparing by a monotone key first changes nothing. -/
theorem compare_eq_key_then {key : Int → Int} (hkey : ∀ {m n}, m ≤ n → key m ≤ key n) (m n : Int) :
    compare m n = (compare (key m) (key n)).then (compare m n) := by
  cases hcompare : compare m n with
  | lt =>
    have hlt := Int.compare_eq_lt.mp hcompare
    have hle := Int.isLE_compare.mpr (hkey (Int.le_of_lt hlt))
    cases h : compare (key m) (key n) <;> simp_all
  | eq =>
    rw [Int.compare_eq_eq.mp hcompare, compare_self]
    rfl
  | gt =>
    have hlt := Int.compare_eq_gt.mp hcompare
    have hle := Int.isGE_compare.mpr (hkey (Int.le_of_lt hlt))
    cases h : compare (key m) (key n) <;> simp_all

/-- Integers are ordered exactly, which agrees with their nearest doubles where these differ. -/
theorem valueOrder_of_integers {m n : Int} (ha : a.integer? = some m) (hb : b.integer? = some n) :
    a.valueOrder b = (compare a.nearest b.nearest).then (compare m n) := by
  rw [nearest_of_integer ha, nearest_of_integer hb]
  refine Eq.trans ?_ (compare_eq_key_then Binary64.totalKey_ofInt_mono m n)
  unfold valueOrder
  rw [integer?_eq_some.mp ha, integer?_eq_some.mp hb]

/-- Two integers are told apart by their values and then by how they are written. -/
theorem fineOrder_of_integers {m n : Int} (ha : a.integer? = some m) (hb : b.integer? = some n) :
    fineOrder a b = (compare m n).then (writtenOrder a b) := by
  unfold fineOrder
  rw [ha, hb]

/-- Other numbers are told apart by how they are written. -/
theorem fineOrder_of_numbers (ha : a.family = 0) (h : a.integer? = none ∨ b.integer? = none) :
    fineOrder a b = writtenOrder a b := by
  unfold fineOrder
  split
  · simp_all
  · rw [if_pos ha]

/-- Other literals are told apart by their texts and then by how they are written. -/
theorem fineOrder_of_others (ha : a.family ≠ 0) :
    fineOrder a b = (compare a.value b.value).then (writtenOrder a b) := by
  unfold fineOrder
  split
  · rename_i m n hm hn
    exact absurd (family_of_integer hm) ha
  · rw [if_neg ha]

/-- Sorting is a rough order by family and nearest double, and a fine one among what that ties. -/
theorem sortOrder_eq_rough_then_fine (a b : Literal) :
    a.sortOrder b = (roughOrder a b).then (fineOrder a b) := by
  rw [sortOrder_eq_then]
  show (a.valueOrder b).then (writtenOrder a b) =
    ((compare a.family b.family).then (compare a.nearest b.nearest)).then (fineOrder a b)
  by_cases hnumbers : a.family = 0 ∧ b.family = 0
  · obtain ⟨ha, hb⟩ := hnumbers
    rw [ha, hb, compare_self, Ordering.eq_then]
    by_cases hinteger : a.integer? = none ∨ b.integer? = none
    · rw [valueOrder_eq_nearest ha hb hinteger, fineOrder_of_numbers ha hinteger]
    · obtain ⟨m, hm⟩ := Option.ne_none_iff_exists'.mp (not_or.mp hinteger).1
      obtain ⟨n, hn⟩ := Option.ne_none_iff_exists'.mp (not_or.mp hinteger).2
      rw [valueOrder_of_integers hm hn, fineOrder_of_integers hm hn, Ordering.then_assoc]
  · rw [valueOrder_eq_family (by omega)]
    by_cases hsame : a.family = b.family
    · have ha : a.nearest = 0 := nearest_of_other (by omega)
      have hb : b.nearest = 0 := nearest_of_other (by omega)
      rw [hsame, ha, hb, fineOrder_of_others (by omega), compare_self, compare_self]
      rfl
    · cases h : compare a.family b.family with
      | eq => exact absurd (Nat.compare_eq_eq.mp h) hsame
      | lt | gt => rfl

/-! ## Equality and reversal -/

/-- Within a family the fine order is the opposite the other way round. -/
theorem fineOrder_swap (hfamily : a.family = b.family) :
    fineOrder a b = (fineOrder b a).swap := by
  have hwritten := writtenOrder_swap a b
  by_cases ha : a.family = 0
  · by_cases hinteger : a.integer? = none ∨ b.integer? = none
    · rw [fineOrder_of_numbers ha hinteger, fineOrder_of_numbers (by omega) hinteger.symm, hwritten]
    · obtain ⟨m, hm⟩ := Option.ne_none_iff_exists'.mp (not_or.mp hinteger).1
      obtain ⟨n, hn⟩ := Option.ne_none_iff_exists'.mp (not_or.mp hinteger).2
      rw [fineOrder_of_integers hm hn, fineOrder_of_integers hn hm, Ordering.swap_then, ← hwritten,
        ← OrientedOrd.eq_swap]
  · rw [fineOrder_of_others ha, fineOrder_of_others (by omega), Ordering.swap_then, ← hwritten,
      ← OrientedOrd.eq_swap]

/-- The order of two literals is the opposite the other way round. -/
theorem sortOrder_swap (a b : Literal) : a.sortOrder b = (b.sortOrder a).swap := by
  have hrough : roughOrder a b = (roughOrder b a).swap := OrientedCmp.eq_swap
  rw [sortOrder_eq_rough_then_fine, sortOrder_eq_rough_then_fine, Ordering.swap_then, ← hrough]
  cases h : roughOrder a b with
  | lt | gt => rfl
  | eq =>
    have hfamily := Nat.compare_eq_eq.mp (Ordering.then_eq_eq.mp h).1
    rw [fineOrder_swap hfamily]

/-- Only the same literal is equal in the order. -/
theorem sortOrder_eq_iff (ha : a.IsCanonical) (hb : b.IsCanonical) :
    a.sortOrder b = .eq ↔ a = b := by
  constructor
  · intro h
    rw [sortOrder_eq_then, Ordering.then_eq_eq] at h
    exact (writtenOrder_eq_iff ha hb).mp h.2
  · rintro rfl
    exact Ordering.eq_eq_of_eq_swap (sortOrder_swap a a)

/-! ## Integers among other numbers -/

/-- A number that is no integer. -/
structure IsFraction (l : Literal) : Prop where
  number : l.family = 0
  integer : l.integer? = none

/-- The only datatype of integers before those of other numbers. -/
def xsdByte : Iri := ⟨Vocabulary.xsdNamespace ++ "byte"⟩

/-- Integers `x` and `y` and a number `z` that is none, all with one nearest double: exact values
put `x` before `y`, but datatypes put `y` before `z` and `z` before `x`. -/
structure IsKnot (x y z : Literal) : Prop where
  integers : ∃ m n, x.integer? = some m ∧ y.integer? = some n ∧ m < n
  fraction : z.IsFraction
  nearest : x.nearest = z.nearest ∧ y.nearest = z.nearest
  datatypes : x.datatype ≠ xsdByte ∧ y.datatype = xsdByte

/-- A number has one of the numeric datatypes, and an integral one if it is an integer. -/
theorem exists_kind {l : Literal} {x : Numeric} (h : Numeric.ofLiteral? l = some x) :
    ∃ kind, Numeric.Kind.ofDatatype? l.datatype = some kind ∧
      (kind = .integer ↔ ∃ n, x = .integer n) := by
  obtain ⟨kind, hkind, hread⟩ := Option.bind_eq_some_iff.mp h
  refine ⟨kind, hkind, ?_⟩
  cases kind <;> obtain ⟨value, -, rfl⟩ := Option.map_eq_some_iff.mp hread <;> simp

/-- The datatype of a fraction is not one of integers. -/
theorem IsFraction.exists_kind {l : Literal} (h : l.IsFraction) :
    ∃ kind, Numeric.Kind.ofDatatype? l.datatype = some kind ∧ kind ≠ .integer := by
  obtain ⟨x, hx⟩ := Option.isSome_iff_exists.mp (family_eq_zero.mp h.number)
  obtain ⟨kind, hkind, hinteger⟩ := Literal.exists_kind hx
  refine ⟨kind, hkind, fun hkind => ?_⟩
  obtain ⟨n, rfl⟩ := hinteger.mp hkind
  have hnone := h.integer
  rw [integer?_eq_some.mpr hx] at hnone
  cases hnone

/-- The texts of datatypes whose local names are given. -/
def datatypeTexts (names : List String) : List String :=
  names.map (Vocabulary.xsdNamespace ++ ·)

/-- A datatype that is found among some names is among the texts of all of them. -/
theorem mem_datatypeTexts {names all : List String} {text : String}
    (h : names.any (fun name => text == Vocabulary.xsdNamespace ++ name) = true)
    (hall : names ⊆ all) : text ∈ datatypeTexts all := by
  obtain ⟨name, hname, htext⟩ := List.any_eq_true.mp h
  exact List.mem_map.mpr ⟨name, hall hname, (beq_iff_eq.mp htext).symm⟩

/-- The datatype of an integer is one of the integral ones. -/
theorem datatype_mem_of_integer {l : Literal} {n : Int} (h : l.integer? = some n) :
    l.datatype.text ∈ datatypeTexts Numeric.integerNames := by
  obtain ⟨kind, hkind, hinteger⟩ := exists_kind (integer?_eq_some.mp h)
  rw [hinteger.mpr ⟨n, rfl⟩] at hkind
  unfold Numeric.Kind.ofDatatype? at hkind
  dsimp only at hkind
  split at hkind
  · rename_i hnames
    exact mem_datatypeTexts hnames (List.Subset.refl _)
  split at hkind
  · cases hkind
  split at hkind <;> cases hkind

/-- The datatype of a fraction is one of three. -/
theorem datatype_mem_of_fraction {l : Literal} (h : l.IsFraction) :
    l.datatype.text ∈ datatypeTexts ["decimal", "double", "float"] := by
  obtain ⟨kind, hkind, hother⟩ := h.exists_kind
  unfold Numeric.Kind.ofDatatype? at hkind
  dsimp only at hkind
  split at hkind
  · exact absurd (Option.some.inj hkind).symm hother
  split at hkind
  · rename_i hnames
    exact mem_datatypeTexts hnames (by simp)
  split at hkind
  · rename_i hnames
    exact mem_datatypeTexts hnames (by simp)
  · cases hkind

/-- An integer stands before a fraction that is written alike if it is of type `xsd:byte`. -/
theorem writtenOrder_of_fraction {n : Int} (ha : a.integer? = some n) (hb : b.IsFraction) :
    writtenOrder a b = if a.datatype = xsdByte then .lt else .gt := by
  have htable : ∀ i ∈ datatypeTexts Numeric.integerNames,
      ∀ f ∈ datatypeTexts ["decimal", "double", "float"],
        compare i f = if i = xsdByte.text then .lt else .gt := by
    decide +kernel
  have hcompare := htable _ (datatype_mem_of_integer ha) _ (datatype_mem_of_fraction hb)
  have hbyte : a.datatype = xsdByte ↔ a.datatype.text = xsdByte.text := by
    cases a.datatype
    simp [xsdByte]
  show (compare a.datatype.text b.datatype.text).then _ = _
  rw [hcompare]
  simp only [hbyte]
  split <;> rfl

/-- An integer is written before a fraction if it is a byte. -/
theorem isLE_writtenOrder_fraction {n : Int} (ha : a.integer? = some n) (hb : b.IsFraction) :
    (writtenOrder a b).isLE = true ↔ a.datatype = xsdByte := by
  rw [writtenOrder_of_fraction ha hb]
  split <;> simp_all

/-- A fraction is written before an integer if this is no byte. -/
theorem isLE_fraction_writtenOrder {n : Int} (ha : a.integer? = some n) (hb : b.IsFraction) :
    (writtenOrder b a).isLE = true ↔ a.datatype ≠ xsdByte := by
  rw [writtenOrder_swap, writtenOrder_of_fraction ha hb]
  split <;> simp_all

/-- Two integers and a fraction that follow each other in a circle form a knot. -/
theorem isKnot_of_cycle {x y z : Literal} {m n : Int} (hx : x.integer? = some m)
    (hy : y.integer? = some n) (hz : z.IsFraction)
    (hnearest : x.nearest = z.nearest ∧ y.nearest = z.nearest)
    (hxy : (fineOrder x y).isLE = true) (hyz : (fineOrder y z).isLE = true)
    (hzx : (fineOrder z x).isLE = true) : IsKnot x y z := by
  rw [fineOrder_of_numbers (family_of_integer hy) (.inr hz.integer)] at hyz
  rw [fineOrder_of_numbers hz.number (.inl hz.integer)] at hzx
  have hbyte := (isLE_writtenOrder_fraction hy hz).mp hyz
  have hother := (isLE_fraction_writtenOrder hx hz).mp hzx
  refine ⟨⟨m, n, hx, hy, ?_⟩, hz, hnearest, hother, hbyte⟩
  -- were the integers the same, all three would be in order as they are written
  rw [fineOrder_of_integers hx hy, Ordering.isLE_then_iff_or] at hxy
  rcases hxy with hlt | ⟨-, hxy⟩
  · exact Int.compare_eq_lt.mp hlt
  · exact absurd ((isLE_writtenOrder_fraction hx hz).mp (TransCmp.isLE_trans hxy hyz)) hother

/-- Integers alone are in order, and so are numbers of which at most one is an integer. -/
theorem fineOrder_trans (ha : a.family = 0) (hb : b.family = 0)
    (h : (∃ m n k, a.integer? = some m ∧ b.integer? = some n ∧ c.integer? = some k) ∨
      (a.integer? = none ∨ b.integer? = none) ∧ (b.integer? = none ∨ c.integer? = none) ∧
        (a.integer? = none ∨ c.integer? = none))
    (hab : (fineOrder a b).isLE = true) (hbc : (fineOrder b c).isLE = true) :
    (fineOrder a c).isLE = true := by
  rcases h with ⟨m, n, k, hm, hn, hk⟩ | ⟨hnab, hnbc, hnac⟩
  · have hexact : ∀ {x y : Literal} {i j : Int}, x.integer? = some i → y.integer? = some j →
        fineOrder x y = compareLex (compareOn integer?) writtenOrder x y := by
      intro x y i j hx hy
      rw [fineOrder_of_integers hx hy]
      unfold compareLex compareOn
      rw [hx, hy]
      rfl
    rw [hexact hm hn] at hab
    rw [hexact hn hk] at hbc
    rw [hexact hm hk]
    exact TransCmp.isLE_trans hab hbc
  · rw [fineOrder_of_numbers ha hnab] at hab
    rw [fineOrder_of_numbers hb hnbc] at hbc
    rw [fineOrder_of_numbers ha hnac]
    exact TransCmp.isLE_trans hab hbc

/-- Among numbers with one nearest double, the order has no other cycles than knots. -/
theorem fineOrder_trans_or_knot (ha : a.family = 0) (hb : b.family = 0) (hc : c.family = 0)
    (hnearest : a.nearest = b.nearest ∧ b.nearest = c.nearest)
    (hab : (fineOrder a b).isLE = true) (hbc : (fineOrder b c).isLE = true) :
    (fineOrder a c).isLE = true ∨ IsKnot a b c ∨ IsKnot b c a ∨ IsKnot c a b := by
  by_cases hac : (fineOrder a c).isLE = true
  · exact .inl hac
  have hca : (fineOrder c a).isLE = true := by
    rw [fineOrder_swap (hc.trans ha.symm)]
    revert hac
    cases fineOrder a c <;> simp
  have hstraight := fun h => hac (fineOrder_trans ha hb h hab hbc)
  obtain ⟨hnab, hnbc⟩ := hnearest
  refine .inr ?_
  cases hm : a.integer? with
  | none =>
    cases hn : b.integer? with
    | none => exact absurd (.inr ⟨.inl hm, .inl hn, .inl hm⟩) hstraight
    | some n =>
      cases hk : c.integer? with
      | none => exact absurd (.inr ⟨.inl hm, .inr hk, .inl hm⟩) hstraight
      | some k =>
        have hfraction : a.IsFraction := ⟨ha, hm⟩
        exact .inr (.inl (isKnot_of_cycle hn hk hfraction
          ⟨hnab.symm, (hnab.trans hnbc).symm⟩ hbc hca hab))
  | some m =>
    cases hn : b.integer? with
    | none =>
      cases hk : c.integer? with
      | none => exact absurd (.inr ⟨.inr hn, .inl hn, .inr hk⟩) hstraight
      | some k =>
        have hfraction : b.IsFraction := ⟨hb, hn⟩
        exact .inr (.inr (isKnot_of_cycle hk hm hfraction ⟨hnbc.symm, hnab⟩ hca hab hbc))
    | some n =>
      cases hk : c.integer? with
      | none =>
        have hfraction : c.IsFraction := ⟨hc, hk⟩
        exact .inl (isKnot_of_cycle hm hn hfraction ⟨hnab.trans hnbc, hnbc⟩ hab hbc hca)
      | some k => exact absurd (.inl ⟨m, n, k, hm, hn, hk⟩) hstraight

/-- The members of a knot follow each other in a circle. -/
theorem IsKnot.cycle {x y z : Literal} (h : IsKnot x y z) :
    x.sortOrder y = .lt ∧ y.sortOrder z = .lt ∧ z.sortOrder x = .lt := by
  obtain ⟨⟨m, n, hx, hy, hlt⟩, hz, ⟨hnx, hny⟩, hother, hbyte⟩ := h
  have hrough : ∀ {a b : Literal}, a.family = 0 → b.family = 0 → a.nearest = b.nearest →
      roughOrder a b = .eq := by
    intro a b ha hb hnearest
    show (compare a.family b.family).then (compare a.nearest b.nearest) = .eq
    rw [ha, hb, hnearest, compare_self, compare_self]
    rfl
  have hx0 := family_of_integer hx
  have hy0 := family_of_integer hy
  refine ⟨?_, ?_, ?_⟩
  · rw [sortOrder_eq_rough_then_fine, hrough hx0 hy0 (hnx.trans hny.symm),
      fineOrder_of_integers hx hy, Int.compare_eq_lt.mpr hlt]
    rfl
  · rw [sortOrder_eq_rough_then_fine, hrough hy0 hz.number hny,
      fineOrder_of_numbers hy0 (.inr hz.integer), writtenOrder_of_fraction hy hz, if_pos hbyte]
    rfl
  · rw [sortOrder_eq_rough_then_fine, hrough hz.number hx0 hnx.symm,
      fineOrder_of_numbers hz.number (.inl hz.integer), writtenOrder_swap,
      writtenOrder_of_fraction hx hz, if_neg hother]
    rfl

/-- The order of literals has no other cycles than knots. -/
theorem sortOrder_trans_or_knot (hab : (a.sortOrder b).isLE = true)
    (hbc : (b.sortOrder c).isLE = true) :
    (a.sortOrder c).isLE = true ∨ IsKnot a b c ∨ IsKnot b c a ∨ IsKnot c a b := by
  rw [sortOrder_eq_rough_then_fine, Ordering.isLE_then_iff_or] at hab hbc
  rw [sortOrder_eq_rough_then_fine, Ordering.isLE_then_iff_or]
  rcases hab with hab | ⟨hab, hfab⟩
  · have hac : roughOrder a c = .lt := by
      refine TransCmp.lt_of_lt_of_isLE hab ?_
      rcases hbc with hbc | ⟨hbc, -⟩ <;> rw [hbc] <;> rfl
    exact .inl (.inl hac)
  rcases hbc with hbc | ⟨hbc, hfbc⟩
  · exact .inl (.inl (TransCmp.lt_of_eq_of_lt hab hbc))
  have hac : roughOrder a c = .eq := TransCmp.eq_trans hab hbc
  obtain ⟨hfamily, hnearest⟩ := Ordering.then_eq_eq.mp hab
  obtain ⟨hfamily', hnearest'⟩ := Ordering.then_eq_eq.mp hbc
  have hfamily : a.family = b.family := Nat.compare_eq_eq.mp hfamily
  have hfamily' : b.family = c.family := Nat.compare_eq_eq.mp hfamily'
  by_cases ha : a.family = 0
  · refine (fineOrder_trans_or_knot ha (by omega) (by omega)
      ⟨Int.compare_eq_eq.mp hnearest, Int.compare_eq_eq.mp hnearest'⟩ hfab hfbc).imp_left ?_
    exact fun h => .inr ⟨hac, h⟩
  · have hlex : ∀ {x y : Literal}, x.family ≠ 0 →
        fineOrder x y = compareLex (compareOn value) writtenOrder x y :=
      fun hx => fineOrder_of_others hx
    rw [hlex ha] at hfab ⊢
    rw [hlex (by omega)] at hfbc
    exact .inl (.inr ⟨hac, TransCmp.isLE_trans hfab hfbc⟩)

end Literal

/-! ## Sort keys -/

/-- No plain literal written with its datatype. -/
def Term.IsCanonical : Term → Prop
  | .literal l => l.IsCanonical
  | _ => True

/-- Three sort keys that are literals and form a knot. -/
def IsKnot (a b c : Option Term) : Prop :=
  ∃ x y z, a = some (.literal x) ∧ b = some (.literal y) ∧ c = some (.literal z) ∧
    Literal.IsKnot x y z

/-- Two sort keys of one sort. -/
inductive AreAlike : Option Term → Option Term → Prop where
  | absent : AreAlike none none
  | blank (x y : BlankNode) : AreAlike (some (.blank x)) (some (.blank y))
  | iri (i j : Iri) : AreAlike (some (.iri i)) (some (.iri j))
  | literal (l m : Literal) : AreAlike (some (.literal l)) (some (.literal m))

variable {a b c : Option Term}

/-- Sort keys of two sorts are ordered by these, others are alike. -/
theorem sortOrder_eq_rank_or_alike (a b : Option Term) :
    sortOrder a b = compare (sortRank a) (sortRank b) ∧ sortRank a ≠ sortRank b ∨
      AreAlike a b := by
  rcases a with _ | _ | _ | _ <;> rcases b with _ | _ | _ | _ <;>
    first
    | (refine .inr ?_; constructor)
    | (refine .inl ⟨rfl, ?_⟩; simp [sortRank])

/-- Terms that are alike have the same rank. -/
theorem AreAlike.rank_eq (h : AreAlike a b) : sortRank a = sortRank b := by
  cases h <;> rfl

/-- The order of two terms is the opposite the other way round. -/
theorem sortOrder_swap (a b : Option Term) : sortOrder a b = (sortOrder b a).swap := by
  rcases sortOrder_eq_rank_or_alike a b with ⟨hab, hne⟩ | hab
  · rcases sortOrder_eq_rank_or_alike b a with ⟨hba, -⟩ | hba
    · rw [hab, hba, ← OrientedOrd.eq_swap]
    · exact absurd hba.rank_eq.symm hne
  · cases hab with
    | absent => rfl
    | blank x y => exact OrientedOrd.eq_swap (α := String)
    | iri i j => exact OrientedOrd.eq_swap (α := String)
    | literal l m => exact l.sortOrder_swap m

/-- Only the same term is equal in the order. -/
theorem sortOrder_eq_iff (ha : ∀ t ∈ a, t.IsCanonical) (hb : ∀ t ∈ b, t.IsCanonical) :
    sortOrder a b = .eq ↔ a = b := by
  constructor
  · intro h
    rcases sortOrder_eq_rank_or_alike a b with ⟨hab, hne⟩ | hab
    · exact absurd (Nat.compare_eq_eq.mp (hab.symm.trans h)) hne
    cases hab with
    | absent => rfl
    | blank x y =>
      have hlabel : x.label = y.label := LawfulEqOrd.eq_of_compare h
      exact congrArg (fun label => some (Term.blank ⟨label⟩)) hlabel
    | iri i j =>
      have htext : i.text = j.text := LawfulEqOrd.eq_of_compare h
      exact congrArg (fun text => some (Term.iri ⟨text⟩)) htext
    | literal l m =>
      have hlm := (Literal.sortOrder_eq_iff (ha _ rfl) (hb _ rfl)).mp h
      exact congrArg (fun l => some (Term.literal l)) hlm
  · rintro rfl
    exact Ordering.eq_eq_of_eq_swap (sortOrder_swap a a)

/-- What is sorted first has no higher rank. -/
theorem rank_le_of_isLE (h : (sortOrder a b).isLE = true) : sortRank a ≤ sortRank b := by
  rcases sortOrder_eq_rank_or_alike a b with ⟨hab, -⟩ | hab
  · rw [hab] at h
    exact Nat.isLE_compare.mp h
  · exact Nat.le_of_eq hab.rank_eq

/-- The order of sort keys has no other cycles than knots. -/
theorem sortOrder_trans_or_knot (hab : (sortOrder a b).isLE = true)
    (hbc : (sortOrder b c).isLE = true) :
    (sortOrder a c).isLE = true ∨ IsKnot a b c ∨ IsKnot b c a ∨ IsKnot c a b := by
  have hrank := rank_le_of_isLE hab
  have hrank' := rank_le_of_isLE hbc
  rcases sortOrder_eq_rank_or_alike a c with ⟨hac, -⟩ | hac
  · rw [hac]
    exact .inl (Nat.isLE_compare.mpr (Nat.le_trans hrank hrank'))
  -- all three are alike
  have hsame := hac.rank_eq
  have hmiddle := (sortOrder_eq_rank_or_alike a b).resolve_left fun h => h.2 (by omega)
  cases hac with
  | absent => exact .inl rfl
  | blank x z =>
    cases hmiddle with
    | blank _ y => exact .inl (TransOrd.isLE_trans hab hbc)
  | iri i k =>
    cases hmiddle with
    | iri _ j => exact .inl (TransOrd.isLE_trans hab hbc)
  | literal l n =>
    cases hmiddle with
    | literal _ m =>
      have hknot : ∀ {x y z : Literal}, Literal.IsKnot x y z →
          IsKnot (some (.literal x)) (some (.literal y)) (some (.literal z)) :=
        fun h => ⟨_, _, _, rfl, rfl, rfl, h⟩
      exact (Literal.sortOrder_trans_or_knot hab hbc).imp_right
        (Or.imp hknot (Or.imp hknot hknot))

/-- The members of a knot follow each other in a circle. -/
theorem IsKnot.cycle (h : IsKnot a b c) :
    sortOrder a b = .lt ∧ sortOrder b c = .lt ∧ sortOrder c a = .lt := by
  obtain ⟨x, y, z, rfl, rfl, rfl, h⟩ := h
  exact h.cycle

/-- Different sort keys are never equal, the order can be reversed, and it is transitive unless the
three sort keys form a knot. -/
theorem sortOrder_laws (ha : ∀ t ∈ a, t.IsCanonical) (hb : ∀ t ∈ b, t.IsCanonical) :
    (sortOrder a b = .eq ↔ a = b) ∧ sortOrder a b = (sortOrder b a).swap ∧
      ((sortOrder a b).isLE = true → (sortOrder b c).isLE = true →
        ((sortOrder a c).isLE = true ↔ ¬(IsKnot a b c ∨ IsKnot b c a ∨ IsKnot c a b))) := by
  refine ⟨sortOrder_eq_iff ha hb, sortOrder_swap a b, fun hab hbc => ?_⟩
  have hcases := sortOrder_trans_or_knot hab hbc
  refine ⟨fun hac hknot => ?_, fun hnone => hcases.resolve_right hnone⟩
  have hca : sortOrder c a = .lt := by
    rcases hknot with h | h | h
    · exact h.cycle.2.2
    · exact h.cycle.2.1
    · exact h.cycle.1
  rw [sortOrder_swap a c, hca] at hac
  cases hac

/-- A sort key that is a number. -/
def numberKey (text name : String) : Option Term :=
  some (.literal (.typed text ⟨Vocabulary.xsdNamespace ++ name⟩))

/-- The key of a number has one form only. -/
theorem isCanonical_numberKey {text name : String} :
    ∀ t ∈ numberKey text name, t.IsCanonical := by
  rintro t ⟨⟩
  exact Literal.isCanonical_typed _ _

/-- The laws for three numbers that are not ordered transitively. -/
theorem sortOrder_laws_numberKey :
    IsKnot (numberKey "9007199254740992" "long") (numberKey "9007199254740993" "byte")
        (numberKey "9007199254740992.0" "decimal") ∨
      IsKnot (numberKey "9007199254740993" "byte") (numberKey "9007199254740992.0" "decimal")
        (numberKey "9007199254740992" "long") ∨
      IsKnot (numberKey "9007199254740992.0" "decimal") (numberKey "9007199254740992" "long")
        (numberKey "9007199254740993" "byte") := by
  have hlaws := sortOrder_laws (a := numberKey "9007199254740992" "long")
    (b := numberKey "9007199254740993" "byte") (c := numberKey "9007199254740992.0" "decimal")
    isCanonical_numberKey isCanonical_numberKey
  have hiff := hlaws.2.2 (by decide +kernel) (by decide +kernel)
  refine Classical.byContradiction fun hnone => ?_
  exact absurd (hiff.mpr hnone) (by decide +kernel)

/-- Beyond the precision of doubles a long and a byte are in a circle with a decimal, so the order
is not transitive. -/
theorem sortOrder_not_transitive :
    sortOrder (numberKey "9007199254740992" "long") (numberKey "9007199254740993" "byte") =
        .lt ∧
      sortOrder (numberKey "9007199254740993" "byte")
        (numberKey "9007199254740992.0" "decimal") = .lt ∧
      sortOrder (numberKey "9007199254740992" "long")
        (numberKey "9007199254740992.0" "decimal") = .gt := by
  decide +kernel

end RdfStore
