import RdfStore.Proofs.Value.Comparison
import RdfStore.Proofs.Value.SortOrder

/-!
# Less-than and the order of sort keys

Comparisons go by values, sort keys by families of literals and then by values or lexical forms.
Both agree: a term that is less than another is sorted before it. There is one exception. Booleans
are sorted by their lexical forms, and of these `1` stands before `false`.
-/

set_option autoImplicit false

namespace RdfStore

open Query Std

/-! ## Families -/

namespace Literal

variable {a b : Literal}

/-- Plain literals are of the family of texts. -/
theorem family_of_isPlain (h : a.isPlain = true) : a.family = 2 := by
  have hdatatype : a.datatype ≠ Vocabulary.xsdBoolean := by
    obtain ⟨value, kind⟩ := a
    cases kind with
    | plain =>
      show Vocabulary.xsdString ≠ Vocabulary.xsdBoolean
      decide
    | tagged language =>
      show Vocabulary.rdfLangString ≠ Vocabulary.xsdBoolean
      decide
    | typed datatype => cases h
  unfold family
  rw [Numeric.ofLiteral?_of_isPlain h, if_neg (by nofun), if_neg hdatatype, if_pos h]

/-- The family of a typed literal that is no number depends on its datatype. -/
theorem family_eq_of_datatype (ha : Numeric.ofLiteral? a = none)
    (hb : Numeric.ofLiteral? b = none) (hplain : a.isPlain = b.isPlain)
    (hdatatype : a.datatype = b.datatype) : a.family = b.family := by
  unfold family
  rw [ha, hb, hplain, hdatatype]

/-- Literals of one family that are no numbers are sorted by their lexical forms. -/
theorem sortOrder_of_others (ha : Numeric.ofLiteral? a = none) (hfamily : a.family = b.family)
    (h : compare a.value b.value = .lt) : a.sortOrder b = .lt := by
  have hothers : a.family ≠ 0 := by
    rw [ne_eq, family_eq_zero, ha]
    nofun
  rw [sortOrder_eq_then, valueOrder_eq_family (.inl hothers), hfamily, compare_self, h]
  rfl

/-- A boolean literal with a lexical form. -/
def boolean (text : String) : Literal := ⟨text, .typed Vocabulary.xsdBoolean⟩

end Literal

/-! ## Values of literals -/

namespace Comparand

variable {l : Literal}

/-- A literal that compares as a text is plain, and this is its text. -/
theorem of_ofLiteral_string {value : String} {language : Option String}
    (h : ofLiteral l = .string value language) : l.isPlain = true ∧ value = l.value := by
  unfold ofLiteral at h
  split at h
  · rename_i hplain
    injection h with hvalue
    exact ⟨hplain, hvalue.symm⟩
  · split at h <;> cases h

/-- A literal that compares by its datatype is neither plain nor a number. -/
theorem of_ofLiteral_other {value : String} {datatype : Iri}
    (h : ofLiteral l = .other value datatype) :
    l.isPlain = false ∧ Numeric.ofLiteral? l = none ∧ value = l.value ∧ datatype = l.datatype := by
  unfold ofLiteral at h
  split at h
  · cases h
  · rename_i hplain
    split at h
    · cases h
    · cases h
    · rename_i hnumber
      injection h with hvalue hdatatype
      exact ⟨eq_false_of_ne_true hplain, hnumber, hvalue.symm, hdatatype.symm⟩

/-- The lexical forms of a truth value. -/
def booleanTexts (b : Bool) : List String := if b then ["true", "1"] else ["false", "0"]

/-- Each truth value has two boolean literals. -/
theorem of_ofLiteral_boolean {b : Bool} (h : ofLiteral l = .boolean b) :
    ∃ text ∈ booleanTexts b, l = .boolean text := by
  unfold ofLiteral at h
  split at h
  · cases h
  rename_i hplain
  split at h
  · rename_i other hboolean
    obtain rfl := Comparand.boolean.inj h
    unfold boolean? at hboolean
    split at hboolean
    · rename_i hdatatype
      obtain ⟨value, kind⟩ := l
      cases kind with
      | plain | tagged => exact absurd rfl hplain
      | typed datatype =>
        obtain rfl : datatype = Vocabulary.xsdBoolean := hdatatype
        refine ⟨value, ?_, rfl⟩
        unfold booleanTexts
        grind
    · cases hboolean
  · cases h
  · cases h

end Comparand

/-- Numbers that are ordered compare in this order. -/
theorem Comparand.compare?_of_relate {x y : Numeric} {o : Ordering}
    (h : (Comparand.numeric x).relate (.numeric y) = .ordered o) : x.compare? y = some o := by
  simp only [relate] at h
  cases hcompare : x.compare? y with
  | none =>
    rw [hcompare] at h
    cases h
  | some other =>
    rw [hcompare] at h
    exact congrArg some (Relation.ordered.inj h)

/-- Only what is ordered as less is less. -/
theorem Query.Comparison.decide?_lt_iff {r : Relation} :
    Comparison.lt.decide? r = some true ↔ r = .ordered .lt := by
  cases r with
  | ordered o => cases o <;> simp [decide?, holds]
  | different | unordered | same | incomparable => simp [decide?, isEquality]

/-- The terms that can be ordered are literals. -/
theorem exists_literals {a b : Term}
    (h : (Comparand.ofTerm a).AreOrdered (Comparand.ofTerm b)) :
    ∃ l m, a = .literal l ∧ b = .literal m := by
  have hnodes : ∀ {x y : Comparand}, x.AreOrdered y → x.isNode = false ∧ y.isNode = false := by
    intro x y h
    cases h <;> exact ⟨rfl, rfl⟩
  obtain ⟨ha, hb⟩ := hnodes h
  cases a with
  | iri node => cases ha
  | blank node => cases ha
  | literal l =>
    cases b with
    | iri node => cases hb
    | blank node => cases hb
    | literal m => exact ⟨l, m, rfl, rfl⟩

/-! ## Agreement -/

/-- The two booleans whose lexical forms are in the wrong order. -/
def IsInverted (a b : Term) : Prop :=
  a = .literal (.boolean "false") ∧ b = .literal (.boolean "1")

instance (a b : Term) : Decidable (IsInverted a b) := inferInstanceAs (Decidable (_ ∧ _))

/-- The first one of the two is a boolean. -/
theorem IsInverted.isBoolean {l m : Literal} (h : IsInverted (.literal l) (.literal m)) :
    Comparand.ofLiteral l = .boolean false := by
  obtain rfl := Term.literal.inj h.1
  rfl

namespace Literal

variable {a b : Literal}

/-- Numbers that are less are sorted first. -/
theorem sortOrder_of_numbers {x y : Numeric} (ha : Comparand.ofLiteral a = .numeric x)
    (hb : Comparand.ofLiteral b = .numeric y) (h : x.compare? y = some .lt) :
    a.sortOrder b = .lt := by
  have hvalue : a.valueOrder b = .lt := by
    unfold valueOrder
    rw [Comparand.ofLiteral_eq_numeric_iff.mp ha, Comparand.ofLiteral_eq_numeric_iff.mp hb]
    cases x with
    | integer m =>
      cases y with
      | integer n => exact Option.some.inj h
      | decimal y | double y => exact Binary64.totalOrder_of_lt h
    | decimal x | double x => cases y <;> exact Binary64.totalOrder_of_lt h
  rw [sortOrder_eq_then, hvalue]
  rfl

/-- Texts that are less are sorted first. -/
theorem sortOrder_of_strings {v w : String} {language : Option String}
    (ha : Comparand.ofLiteral a = .string v language)
    (hb : Comparand.ofLiteral b = .string w language) (h : compare v w = .lt) :
    a.sortOrder b = .lt := by
  obtain ⟨hplain, rfl⟩ := Comparand.of_ofLiteral_string ha
  obtain ⟨hplain', rfl⟩ := Comparand.of_ofLiteral_string hb
  have hfamily := (family_of_isPlain hplain).trans (family_of_isPlain hplain').symm
  exact sortOrder_of_others (Numeric.ofLiteral?_of_isPlain hplain) hfamily h

/-- Literals of one datatype that are less are sorted first. -/
theorem sortOrder_of_typed {v w : String} {datatype : Iri}
    (ha : Comparand.ofLiteral a = .other v datatype)
    (hb : Comparand.ofLiteral b = .other w datatype) (h : compare v w = .lt) :
    a.sortOrder b = .lt := by
  obtain ⟨hplain, hnumber, rfl, rfl⟩ := Comparand.of_ofLiteral_other ha
  obtain ⟨hplain', hnumber', rfl, hdatatype⟩ := Comparand.of_ofLiteral_other hb
  have hfamily :=
    family_eq_of_datatype hnumber hnumber' (hplain.trans hplain'.symm) hdatatype
  exact sortOrder_of_others hnumber hfamily h

/-- Of the four pairs of a false and a true literal, one is sorted the other way. -/
theorem sortOrder_of_booleans (ha : Comparand.ofLiteral a = .boolean false)
    (hb : Comparand.ofLiteral b = .boolean true) :
    a.sortOrder b = if IsInverted (.literal a) (.literal b) then .gt else .lt := by
  have htable : ∀ v ∈ Comparand.booleanTexts false, ∀ w ∈ Comparand.booleanTexts true,
      (boolean v).sortOrder (boolean w) =
        if IsInverted (.literal (boolean v)) (.literal (boolean w)) then .gt else .lt := by
    decide
  obtain ⟨v, hv, rfl⟩ := Comparand.of_ofLiteral_boolean ha
  obtain ⟨w, hw, rfl⟩ := Comparand.of_ofLiteral_boolean hb
  exact htable v hv w hw

end Literal

/-- A term that is less than another is sorted before it, unless they are the boolean literals
`false` and `1`, which are sorted the other way. -/
theorem sortOrder_of_less {a b : Term} (h : compareTerms? .lt a b = some true) :
    sortOrder (some a) (some b) = if IsInverted a b then .gt else .lt := by
  have hordered := Comparand.areOrdered_of_decide? rfl h
  obtain ⟨l, m, rfl, rfl⟩ := exists_literals hordered
  have hrelate := Comparison.decide?_lt_iff.mp h
  have hstraight : Comparand.ofLiteral l ≠ .boolean false →
      ¬IsInverted (.literal l) (.literal m) := mt IsInverted.isBoolean
  simp only [Comparand.ofTerm] at hordered hrelate
  show l.sortOrder m = _
  generalize hx : Comparand.ofLiteral l = x at hordered hrelate hstraight
  generalize hy : Comparand.ofLiteral m = y at hordered hrelate
  cases hordered with
  | numbers x y =>
    rw [if_neg (hstraight (by simp))]
    exact Literal.sortOrder_of_numbers hx hy (Comparand.compare?_of_relate hrelate)
  | strings v w language =>
    have hless : compare v w = .lt := by simpa [Comparand.relate] using hrelate
    rw [if_neg (hstraight (by simp))]
    exact Literal.sortOrder_of_strings hx hy hless
  | others v w datatype =>
    have hless : compare v w = .lt := by simpa [Comparand.relate] using hrelate
    rw [if_neg (hstraight (by simp))]
    exact Literal.sortOrder_of_typed hx hy hless
  | booleans p q =>
    obtain ⟨rfl, rfl⟩ : p = false ∧ q = true := by
      have hless := Relation.ordered.inj hrelate
      cases p <;> cases q <;> simp_all
    exact Literal.sortOrder_of_booleans hx hy

/-- The boolean `false` is less than `1`, and is sorted after it. -/
theorem sortOrder_inverted :
    let no : Term := .literal (.boolean "false")
    let yes : Term := .literal (.boolean "1")
    compareTerms? .lt no yes = some true ∧ sortOrder (some no) (some yes) = .gt := by
  decide

end RdfStore
