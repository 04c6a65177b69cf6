import RdfStore.Term.Build

/-!
# Well-formed terms

Terms that the checked constructors can make. Their IRIs are absolute and hold no characters
that are forbidden in an IRI, the labels of their blank nodes and their language tags are
well-formed, and building them again gives the same terms.
-/

set_option autoImplicit false

namespace RdfStore

open RdfStore.Text

/-- An IRI that can be made from its text. -/
def Iri.IsWellFormed (i : Iri) : Prop := Iri.of i.text = .ok i

/-- A blank node that can be made from its label. -/
def BlankNode.IsWellFormed (b : BlankNode) : Prop := BlankNode.of b.label = .ok b

/-- A literal that is plain, in a language, or of a datatype that can be written. -/
inductive Literal.IsWellFormed : Literal → Prop where
  | plain (value : String) : IsWellFormed (Literal.plain value)
  | tagged {value language : String} {l : Literal} (h : Literal.tagged value language = .ok l) :
    IsWellFormed l
  | typed {value : String} {datatype : Iri} {l : Literal} (hdatatype : datatype.IsWellFormed)
    (h : Literal.checkedTyped value datatype = .ok l) : IsWellFormed l

/-- A subject that is well-formed. -/
def Subject.IsWellFormed : Subject → Prop
  | .iri node => node.IsWellFormed
  | .blank node => node.IsWellFormed

/-- A term that is well-formed. -/
def Term.IsWellFormed : Term → Prop
  | .iri node => node.IsWellFormed
  | .blank node => node.IsWellFormed
  | .literal l => l.IsWellFormed

/-- A triple of well-formed terms. -/
structure Triple.IsWellFormed (t : Triple) : Prop where
  subject : t.subject.IsWellFormed
  predicate : t.predicate.IsWellFormed
  object : t.object.IsWellFormed

/-- A well-formed subject is a well-formed term. -/
theorem Subject.IsWellFormed.toTerm {s : Subject} (h : s.IsWellFormed) : s.toTerm.IsWellFormed := by
  cases s <;> exact h

/-! ## IRIs -/

/-- The text of a checked IRI. -/
theorem Iri.of_eq_ok {text : String} {i : Iri} (h : Iri.of text = .ok i) :
    i = ⟨text⟩ ∧ Validity.isIriText text.toList = true ∧
      Validity.isAbsolute text.toList = true := by
  unfold Iri.of Iri.checkText at h
  cases htext : Validity.isIriText text.toList with
  | false =>
    rw [htext] at h
    cases h
  | true =>
    cases habsolute : Validity.isAbsolute text.toList with
    | false =>
      rw [htext, habsolute] at h
      cases h
    | true =>
      rw [htext, habsolute] at h
      cases h
      exact ⟨rfl, rfl, rfl⟩

/-- An absolute text without forbidden characters makes an IRI. -/
theorem Iri.of_eq {text : String} (htext : Validity.isIriText text.toList = true)
    (habsolute : Validity.isAbsolute text.toList = true) : Iri.of text = .ok ⟨text⟩ := by
  unfold Iri.of Iri.checkText
  rw [htext, habsolute]
  rfl

/-- A text with forbidden characters makes none. -/
theorem Iri.of_eq_error {text : String} (h : Validity.isIriText text.toList = false) :
    Iri.of text = .error (.invalidIri text) := by
  unfold Iri.of Iri.checkText
  rw [h]
  rfl

/-- The text of a well-formed IRI is absolute and without forbidden characters. -/
theorem Iri.IsWellFormed.valid {i : Iri} (h : i.IsWellFormed) :
    Validity.isIriText i.text.toList = true ∧ Validity.isAbsolute i.text.toList = true :=
  (Iri.of_eq_ok h).2

/-! ## Blank nodes -/

/-- The label of a well-formed blank node is one. -/
theorem BlankNode.IsWellFormed.valid {b : BlankNode} (h : b.IsWellFormed) :
    Validity.isLabel b.label.toList = true := by
  unfold IsWellFormed BlankNode.of at h
  split at h
  · assumption
  · cases h

/-! ## Literals -/

/-- Lower-casing keeps a character, or it makes a letter of a letter that stays as it is. -/
theorem asciiLower_cases (c : Char) :
    asciiLower c = c ∨ isAsciiLetter c = true ∧ isAsciiLetter (asciiLower c) = true ∧
      asciiLower (asciiLower c) = asciiLower c := by
  have hall : ∀ n < 0x5B, 0x41 ≤ n → isAsciiLetter (Char.ofNat (n + 0x20)) = true ∧
      asciiLower (Char.ofNat (n + 0x20)) = Char.ofNat (n + 0x20) := by decide
  cases hupper : (0x41 ≤ c.toNat && c.toNat ≤ 0x5A : Bool) with
  | false => exact Or.inl (if_neg (by rw [hupper]; exact Bool.false_ne_true))
  | true =>
    have hlower : asciiLower c = Char.ofNat (c.toNat + 0x20) := if_pos hupper
    have hletter : isAsciiLetter c = true := Bool.or_eq_true_iff.mpr (Or.inl hupper)
    simp only [Bool.and_eq_true, decide_eq_true_eq] at hupper
    rw [hlower]
    exact Or.inr ⟨hletter, hall c.toNat (by omega) hupper.1⟩

/-- Lower-casing twice is lower-casing once. -/
theorem asciiLower_asciiLower (c : Char) : asciiLower (asciiLower c) = asciiLower c := by
  rcases asciiLower_cases c with h | ⟨-, -, h⟩
  · rw [h, h]
  · exact h

/-- Lower-casing makes letters of letters only. -/
theorem isAsciiLetter_asciiLower (c : Char) : isAsciiLetter (asciiLower c) = isAsciiLetter c := by
  rcases asciiLower_cases c with h | ⟨hc, hlower, -⟩
  · rw [h]
  · rw [hc, hlower]

/-- Lower-casing makes letters and digits of letters and digits only. -/
theorem isAsciiAlphanumeric_asciiLower (c : Char) :
    isAsciiAlphanumeric (asciiLower c) = isAsciiAlphanumeric c := by
  rcases asciiLower_cases c with h | ⟨hc, hlower, -⟩
  · rw [h]
  · rw [isAsciiAlphanumeric, isAsciiAlphanumeric, hc, hlower, Bool.true_or, Bool.true_or]

/-- Only a hyphen becomes a hyphen. -/
theorem asciiLower_eq_hyphen {c : Char} (h : asciiLower c = '-') : c = '-' := by
  rcases asciiLower_cases c with hc | ⟨-, hlower, -⟩
  · exact hc.symm.trans h
  · rw [h] at hlower
    cases hlower

/-- The rest of a subtag stays one in lower case. -/
theorem isSubtagRest_lower {cs : List Char} (h : Validity.isSubtags.isSubtagRest cs = true) :
    Validity.isSubtags.isSubtagRest (cs.map asciiLower) = true := by
  fun_induction Validity.isSubtags.isSubtagRest cs with
  | case1 => rfl
  | case2 c rest ih =>
    obtain ⟨hc, hrest⟩ := Bool.and_eq_true_iff.mp h
    show (isAsciiAlphanumeric (asciiLower c) &&
      Validity.isSubtags.isSubtagRest (rest.map asciiLower)) = true
    rw [isAsciiAlphanumeric_asciiLower, hc, ih hrest]
    rfl
  | case3 c rest hhyphen ih =>
    obtain ⟨hc, hrest⟩ := Bool.and_eq_true_iff.mp h
    rw [List.map_cons, Validity.isSubtags.isSubtagRest, isAsciiAlphanumeric_asciiLower, hc,
      ih hrest]
    · rfl
    · intro d tail hd htail
      -- a hyphen in lower case was one before, and then the text starts as in the case before
      cases rest with
      | nil => cases htail
      | cons e more => exact hhyphen e more (asciiLower_eq_hyphen hd) rfl

/-- Subtags stay subtags in lower case. -/
theorem isSubtags_lower {cs : List Char} (h : Validity.isSubtags cs = true) :
    Validity.isSubtags (cs.map asciiLower) = true := by
  unfold Validity.isSubtags at h
  split at h
  · rfl
  · obtain ⟨hc, hrest⟩ := Bool.and_eq_true_iff.mp h
    rename_i c rest
    show (isAsciiAlphanumeric (asciiLower c) &&
      Validity.isSubtags.isSubtagRest (rest.map asciiLower)) = true
    rw [isAsciiAlphanumeric_asciiLower, hc, isSubtagRest_lower hrest]
    rfl
  · cases h

/-- A language tag stays one in lower case. -/
theorem isLanguageTag_lower {cs : List Char} (h : Validity.isLanguageTag cs = true) :
    Validity.isLanguageTag (cs.map asciiLower) = true := by
  obtain ⟨hletters, hsubtags⟩ := Bool.and_eq_true_iff.mp h
  have hclass : isAsciiLetter ∘ asciiLower = isAsciiLetter := funext isAsciiLetter_asciiLower
  rw [Validity.isLanguageTag, List.takeWhile_map, List.dropWhile_map, hclass, List.isEmpty_map,
    hletters, isSubtags_lower hsubtags]
  rfl

/-- The tag of a literal in a language is well-formed and in lower case. -/
theorem Literal.tagged_eq_ok {value language : String} {l : Literal}
    (h : Literal.tagged value language = .ok l) :
    ∃ tag, l = ⟨value, .tagged tag⟩ ∧ Validity.isLanguageTag tag.toList = true ∧
      Literal.tagged value tag = .ok l := by
  unfold Literal.tagged at h
  split at h
  · rename_i hvalid
    cases h
    have hlower : Validity.isLanguageTag (asciiLowerString language).toList = true := by
      rw [asciiLowerString, String.toList_ofList]
      exact isLanguageTag_lower hvalid
    have htwice : asciiLowerString (asciiLowerString language) = asciiLowerString language := by
      unfold asciiLowerString
      rw [String.toList_ofList, List.map_map]
      exact congrArg String.ofList (List.map_congr_left fun c _ => asciiLower_asciiLower c)
    refine ⟨asciiLowerString language, rfl, hlower, ?_⟩
    rw [Literal.tagged, if_pos hlower, htwice]
  · cases h

/-- A literal of a checked datatype is plain, or carries the datatype and is checked again. -/
theorem Literal.checkedTyped_eq_ok {value : String} {datatype : Iri} {l : Literal}
    (h : Literal.checkedTyped value datatype = .ok l) :
    l = Literal.plain value ∨
      l = ⟨value, .typed datatype⟩ ∧ Literal.checkedTyped value datatype = .ok l := by
  suffices hl : l = Literal.plain value ∨ l = ⟨value, .typed datatype⟩ from
    hl.imp id fun heq => ⟨heq, h⟩
  unfold Literal.checkedTyped Literal.typed at h
  split at h
  · cases h
  split at h
  · exact Or.inl (Except.ok.inj h).symm
  · exact Or.inr (Except.ok.inj h).symm

/-- What a well-formed literal carries can be checked again. -/
theorem Literal.IsWellFormed.kind_cases {l : Literal} (h : l.IsWellFormed) :
    l.kind = .plain ∨
      (∃ tag, l.kind = .tagged tag ∧ Validity.isLanguageTag tag.toList = true ∧
        Literal.tagged l.value tag = .ok l) ∨
      ∃ datatype, l.kind = .typed datatype ∧ datatype.IsWellFormed ∧
        Literal.checkedTyped l.value datatype = .ok l := by
  cases h with
  | plain value => exact Or.inl rfl
  | tagged h =>
    obtain ⟨tag, rfl, htag, hagain⟩ := Literal.tagged_eq_ok h
    exact Or.inr (Or.inl ⟨tag, rfl, htag, hagain⟩)
  | typed hdatatype h =>
    rcases Literal.checkedTyped_eq_ok h with rfl | ⟨rfl, hagain⟩
    · exact Or.inl rfl
    · exact Or.inr (Or.inr ⟨_, rfl, hdatatype, hagain⟩)

/-! ## Tests -/

/-- The text of an IRI is absolute and holds no forbidden character. -/
def Iri.PassesTests (i : Iri) : Prop :=
  Validity.isIriText i.text.toList = true ∧ Validity.isAbsolute i.text.toList = true

/-- The IRIs, the label and the language tag of a term pass their tests. -/
def Term.PassesTests : Term → Prop
  | .iri i => i.PassesTests
  | .blank b => Validity.isLabel b.label.toList = true
  | .literal l =>
    match l.kind with
    | .plain => True
    | .tagged tag => Validity.isLanguageTag tag.toList = true
    | .typed datatype => datatype.PassesTests

/-- So do those of a triple. -/
structure Triple.PassesTests (t : Triple) : Prop where
  subject : t.subject.toTerm.PassesTests
  predicate : t.predicate.PassesTests
  object : t.object.PassesTests

/-- A well-formed term passes the tests that reading makes. -/
theorem Term.IsWellFormed.passesTests {t : Term} (h : t.IsWellFormed) : t.PassesTests := by
  cases t with
  | iri i => exact Iri.IsWellFormed.valid h
  | blank b => exact BlankNode.IsWellFormed.valid h
  | literal l =>
    rw [Term.PassesTests]
    rcases Literal.IsWellFormed.kind_cases h with hl | ⟨tag, hl, htag, -⟩ | ⟨datatype, hl, hiri, -⟩
    · rw [hl]
      trivial
    · rw [hl]
      exact htag
    · rw [hl]
      exact hiri.valid

/-- A well-formed triple passes the tests that reading makes. -/
theorem Triple.IsWellFormed.passesTests {t : Triple} (h : t.IsWellFormed) : t.PassesTests where
  subject := h.subject.toTerm.passesTests
  predicate := h.predicate.valid
  object := h.object.passesTests

end RdfStore
