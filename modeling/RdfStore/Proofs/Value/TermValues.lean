import RdfStore.Proofs.Syntax.TokenTerms
import RdfStore.Value.Builtin

/-!
# Functions give well-formed terms

What a function makes of well-formed terms is well-formed: truth values, numbers and plain texts
always are, a text that keeps the language of another is as good as that one, and the datatype of
a well-formed literal is a well-formed IRI.
-/

set_option autoImplicit false

namespace RdfStore

/-! ## Literals -/

/-- Another text with the kind of a well-formed plain or tagged literal. -/
theorem Literal.isWellFormed_withText {l : Literal} (h : l.IsWellFormed)
    (hplain : l.isPlain = true) (value : String) : (Literal.mk value l.kind).IsWellFormed := by
  rcases h.kind_cases with hkind | ⟨tag, -, htag, hagain⟩ | ⟨datatype, hkind, -⟩
  · rw [hkind]
    exact .plain value
  · have htagged : Literal.tagged value tag = .ok ⟨value, l.kind⟩ := by
      rw [Literal.tagged, if_pos htag] at hagain ⊢
      rw [← Except.ok.inj hagain]
    exact .tagged htagged
  · rw [isPlain, hkind] at hplain
    cases hplain

/-- The datatype of a well-formed literal is a well-formed IRI. -/
theorem Literal.IsWellFormed.datatype {l : Literal} (h : l.IsWellFormed) :
    l.datatype.IsWellFormed := by
  have hstring : Vocabulary.xsdString.IsWellFormed := rfl
  have hlanguage : Vocabulary.rdfLangString.IsWellFormed := rfl
  unfold Literal.datatype
  rcases h.kind_cases with hkind | ⟨tag, hkind, -⟩ | ⟨datatype, hkind, hdatatype, -⟩
  · rw [hkind]
    exact hstring
  · rw [hkind]
    exact hlanguage
  · rw [hkind]
    exact hdatatype

/-- The term of a truth value is well formed. -/
theorem Truth.isWellFormed_toTerm (b : Bool) : (toTerm b).IsWellFormed :=
  Literal.isWellFormed_xsd List.mem_cons_self _

/-- The term of a number is well formed. -/
theorem Numeric.isWellFormed_toTerm (n : Numeric) : n.toTerm.IsWellFormed := by
  cases n <;> exact Literal.isWellFormed_xsd (by simp) _

/-! ## Casts -/

/-- A cast makes plain texts, truth values and numbers. -/
theorem Cast.isWellFormed_of_term? {target : Query.CastTarget} {t u : Term}
    (h : term? target t = some u) : u.IsWellFormed := by
  have hplain : ∀ value, (Term.literal (Literal.plain value)).IsWellFormed := fun value =>
    Literal.IsWellFormed.plain value
  cases t with
  | iri node =>
    simp only [term?, Option.ite_none_right_eq_some] at h
    obtain ⟨-, h⟩ := h
    cases h
    exact hplain _
  | blank node => cases h
  | literal l =>
    simp only [term?, Option.ite_none_left_eq_some] at h
    obtain ⟨-, h⟩ := h
    cases target with
    | string =>
      cases h
      exact hplain _
    | boolean =>
      obtain ⟨b, -, rfl⟩ := Option.map_eq_some_iff.mp h
      exact Truth.isWellFormed_toTerm b
    | integer | decimal | double =>
      obtain ⟨x, -, rfl⟩ := Option.map_eq_some_iff.mp h
      exact Numeric.isWellFormed_toTerm _

/-! ## Functions -/

namespace Builtin

open Query (Function)

variable {args : List Term} {t u : Term}

/-- A plain literal is well formed. -/
theorem isWellFormed_plain (value : String) : (Term.literal (Literal.plain value)).IsWellFormed :=
  Literal.IsWellFormed.plain value

/-- A term with a text is a plain literal. -/
theorem string?_eq_some {l : Literal} (h : string? t = some l) :
    t = .literal l ∧ l.isPlain = true := by
  cases t with
  | iri | blank => cases h
  | literal m =>
    simp only [string?, Option.ite_none_right_eq_some] at h
    obtain ⟨hplain, h⟩ := h
    cases h
    exact ⟨rfl, hplain⟩

/-- A test has a truth value. -/
theorem isWellFormed_of_test? {b : Option Bool} (h : test? b = some t) : t.IsWellFormed := by
  obtain ⟨b, -, rfl⟩ := Option.map_eq_some_iff.mp h
  exact Truth.isWellFormed_toTerm b

/-- A text that is like a string has the same language. -/
theorem isWellFormed_stringLike {l : Literal} (ht : t.IsWellFormed) (h : string? t = some l)
    (text : List Char) : (stringLike l text).IsWellFormed := by
  obtain ⟨rfl, hplain⟩ := string?_eq_some h
  exact Literal.isWellFormed_withText ht hplain _

/-- The kind of a concatenation is that of one of its parts, or none. -/
theorem commonKind_cases (parts : List Literal) :
    commonKind parts = .plain ∨ ∃ l ∈ parts, commonKind parts = l.kind := by
  cases parts with
  | nil => exact Or.inl rfl
  | cons l rest =>
    rw [commonKind]
    split
    · exact Or.inr ⟨l, List.mem_cons_self, rfl⟩
    · exact Or.inl rfl

/-- A joined text is a well-formed term. -/
theorem isWellFormed_of_concat? (hargs : ∀ a ∈ args, a.IsWellFormed) (h : concat? args = some t) :
    t.IsWellFormed := by
  obtain ⟨parts, hparts, h⟩ := Option.bind_eq_some_iff.mp h
  cases h
  rcases commonKind_cases parts with hkind | ⟨l, hl, hkind⟩
  · rw [hkind]
    exact isWellFormed_plain _
  · rw [hkind]
    obtain ⟨a, ha, hstring⟩ := exists_of_mem_mapM hparts l hl
    obtain ⟨rfl, hplain⟩ := string?_eq_some hstring
    exact Literal.isWellFormed_withText (hargs _ ha) hplain _

/-- The value of a function at well-formed terms is well-formed. -/
theorem isWellFormed_of_value? {f : Function} (hargs : ∀ a ∈ args, a.IsWellFormed)
    (h : value? f args = some t) : t.IsWellFormed := by
  unfold value? at h
  split at h
  · -- `STR`
    rename_i a
    cases a <;> cases h <;> exact isWellFormed_plain _
  · -- `LANG`
    rename_i a
    cases a <;> cases h
    exact isWellFormed_plain _
  · -- `LANGMATCHES`
    obtain ⟨tag, -, h⟩ := Option.bind_eq_some_iff.mp h
    obtain ⟨range, -, h⟩ := Option.bind_eq_some_iff.mp h
    cases h
    exact Truth.isWellFormed_toTerm _
  · -- `DATATYPE`
    rename_i a
    cases a <;> cases h
    exact Literal.IsWellFormed.datatype (hargs _ List.mem_cons_self)
  -- tests of the sort of a term
  iterate 5
    cases h
    exact Truth.isWellFormed_toTerm _
  · exact isWellFormed_of_test? h
  · obtain ⟨flags, -, h⟩ := Option.bind_eq_some_iff.mp h
    exact isWellFormed_of_test? h
  -- tests of two texts
  iterate 3
    obtain ⟨texts, -, h⟩ := Option.bind_eq_some_iff.mp h
    cases h
    exact Truth.isWellFormed_toTerm _
  · -- `STRLEN`
    obtain ⟨l, -, h⟩ := Option.bind_eq_some_iff.mp h
    cases h
    exact Literal.isWellFormed_xsd (by simp) _
  · -- `UCASE` and `LCASE`
    obtain ⟨l, hl, h⟩ := Option.bind_eq_some_iff.mp h
    cases h
    exact isWellFormed_stringLike (hargs _ List.mem_cons_self) hl _
  · obtain ⟨l, hl, h⟩ := Option.bind_eq_some_iff.mp h
    cases h
    exact isWellFormed_stringLike (hargs _ List.mem_cons_self) hl _
  · exact isWellFormed_of_concat? hargs h
  · -- `ABS`
    obtain ⟨n, -, h⟩ := Option.bind_eq_some_iff.mp h
    obtain ⟨m, -, h⟩ := Option.bind_eq_some_iff.mp h
    cases h
    exact Numeric.isWellFormed_toTerm _
  · exact Cast.isWellFormed_of_term? h
  · cases h

end Builtin

end RdfStore
