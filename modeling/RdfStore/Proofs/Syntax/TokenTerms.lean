import RdfStore.Proofs.Term.Reading
import RdfStore.Store.Blank
import RdfStore.Syntax.Token

/-!
# Tokens denote well-formed terms

The tokens of both languages denote well-formed IRIs and literals, whatever their text and
whatever scope they stand in, and the labels that are made up for new blank nodes are labels.
-/

set_option autoImplicit false

namespace RdfStore

open RdfStore.Text

/-! ## Labels with numbers -/

/-- The digits of a number can stand in a name. -/
theorem Text.isNameChar_of_mem_toDigits {base n : Nat} (hlow : 1 < base) (hhigh : base ≤ 16)
    {c : Char} (hc : c ∈ Nat.toDigits base n) : isNameChar c = true := by
  have hdigit : ∀ d, d < base → isNameChar d.digitChar = true := by
    intro d hd
    have hall : ∀ d < 16, isNameChar d.digitChar = true := by decide
    exact hall d (by omega)
  induction n using Nat.strongRecOn with
  | ind n ih =>
    by_cases hn : n < base
    · rw [Nat.toDigits_of_lt_base hn, List.mem_singleton] at hc
      subst hc
      exact hdigit n hn
    · rw [Nat.toDigits_of_base_le hlow (by omega), List.mem_append, List.mem_singleton] at hc
      rcases hc with hc | rfl
      · exact ih (n / base) (Nat.div_lt_self (by omega) hlow) hc
      · exact hdigit _ (Nat.mod_lt n (by omega))

/-- A label start and characters of names make a label. -/
theorem Validity.isLabel_cons {c : Char} {rest : List Char} (hc : isLabelStart c = true)
    (hrest : ∀ d ∈ rest, isNameChar d = true) : isLabel (c :: rest) = true := by
  have hall : (rest.all fun d => isNameChar d || d == '.') = true := by
    rw [List.all_eq_true]
    intro d hd
    rw [hrest d hd, Bool.true_or]
  have hlast : (c :: rest).getLast? ≠ some '.' := by
    intro hdot
    have hmem := List.mem_of_getLast? hdot
    rcases List.mem_cons.mp hmem with rfl | hmem
    · exact absurd hc (by decide)
    · exact absurd (hrest _ hmem) (by decide)
  simp [isLabel, hc, hall, hlast]

/-- A blank node with a label of the right form is well formed. -/
theorem BlankNode.isWellFormed_of_isLabel {b : BlankNode}
    (h : Validity.isLabel b.label.toList = true) : b.IsWellFormed := by
  rw [IsWellFormed, BlankNode.of, if_pos h]

/-- A letter and a number name a blank node. -/
theorem BlankNode.isWellFormed_numbered {letter : String} {c : Char} (hletter : letter.toList = [c])
    (hc : isLabelStart c = true) (n : Nat) :
    BlankNode.IsWellFormed ⟨letter ++ toString n⟩ := by
  refine isWellFormed_of_isLabel ?_
  have htext : (letter ++ toString n).toList = c :: Nat.toDigits 10 n := by
    simp [hletter]
  rw [htext]
  exact Validity.isLabel_cons hc fun d hd => isNameChar_of_mem_toDigits (by omega) (by omega) hd

/-- The name of an attempt is that of a blank node. -/
theorem Store.isWellFormed_freshLabel (tick counter : Nat) :
    BlankNode.IsWellFormed ⟨freshLabel tick counter⟩ := by
  refine BlankNode.isWellFormed_of_isLabel ?_
  have htext : (freshLabel tick counter).toList =
      't' :: (Nat.toDigits 16 tick ++ 'n' :: Nat.toDigits 10 counter) := by
    simp [freshLabel]
  rw [htext]
  refine Validity.isLabel_cons (by decide) fun d hd => ?_
  rcases List.mem_append.mp hd with hd | hd
  · exact isNameChar_of_mem_toDigits (by omega) (by omega) hd
  rcases List.mem_cons.mp hd with rfl | hd
  · decide
  · exact isNameChar_of_mem_toDigits (by omega) (by omega) hd

/-! ## Vocabulary -/

/-- The vocabulary of lists and classes is well-formed. -/
theorem Vocabulary.isWellFormed_rdf : rdfFirst.IsWellFormed ∧ rdfRest.IsWellFormed ∧
    rdfNil.IsWellFormed ∧ rdfType.IsWellFormed := ⟨rfl, rfl, rfl, rfl⟩

/-- A literal of a well-formed datatype other than that of tagged ones is well-formed. -/
theorem Literal.isWellFormed_typed {datatype : Iri} (h : datatype.IsWellFormed)
    (hne : datatype ≠ Vocabulary.rdfLangString) (value : String) :
    (Literal.typed value datatype).IsWellFormed :=
  .typed h (if_neg hne)

/-- Numbers and truth values have well-formed datatypes. -/
theorem Literal.isWellFormed_xsd {datatype : Iri}
    (h : datatype ∈ [Vocabulary.xsdBoolean, Vocabulary.xsdInteger, Vocabulary.xsdDecimal,
      Vocabulary.xsdDouble]) (value : String) : (Literal.typed value datatype).IsWellFormed := by
  have hboolean : Vocabulary.xsdBoolean.IsWellFormed := rfl
  have hinteger : Vocabulary.xsdInteger.IsWellFormed := rfl
  have hdecimal : Vocabulary.xsdDecimal.IsWellFormed := rfl
  have hdouble : Vocabulary.xsdDouble.IsWellFormed := rfl
  simp only [List.mem_cons, List.not_mem_nil, or_false] at h
  rcases h with rfl | rfl | rfl | rfl
  · exact isWellFormed_typed hboolean (by decide) value
  · exact isWellFormed_typed hinteger (by decide) value
  · exact isWellFormed_typed hdecimal (by decide) value
  · exact isWellFormed_typed hdouble (by decide) value

namespace Syntax.IriScope

variable {R : Type} {scope : IriScope} {terminal? : R → Option Terminal} {token : Peg.ParseTree R}

/-! ## Tokens -/

/-- What was resolved or read is checked. -/
theorem isWellFormed_of_reference {content : List Char} {i : Iri}
    (h : scope.reference content = .ok i) : i.IsWellFormed := by
  obtain ⟨decoded, -, h⟩ := bind_eq_ok h
  split at h
  · exact Iri.isWellFormed_of_of (mapError_eq_ok h)
  split at h
  · cases h
  · obtain ⟨resolved, -, h⟩ := bind_eq_ok (mapError_eq_ok h)
    exact Iri.isWellFormed_of_of h

/-- A prefixed name is expanded to a well-formed address. -/
theorem isWellFormed_of_prefixedName {text : List Char} {i : Iri}
    (h : scope.prefixedName text = .ok i) : i.IsWellFormed := by
  unfold prefixedName at h
  dsimp only at h
  split at h
  · cases h
  · exact Iri.isWellFormed_of_of (mapError_eq_ok h)

/-- The IRI of a token is well-formed. -/
theorem isWellFormed_of_iri {i : Iri} (h : scope.iri terminal? token = .ok i) :
    i.IsWellFormed := by
  unfold iri at h
  split at h
  · exact isWellFormed_of_reference (mapError_eq_ok h)
  · exact isWellFormed_of_prefixedName (mapError_eq_ok h)
  · exact isWellFormed_of_prefixedName (mapError_eq_ok h)
  · cases h

/-- The literal of a token is well-formed. -/
theorem isWellFormed_of_literal {l : Literal} (h : scope.literal terminal? token = .ok l) :
    l.IsWellFormed := by
  unfold literal at h
  split at h
  · cases h
    exact .plain _
  · obtain ⟨value, -, h⟩ := bind_eq_ok h
    split at h
    · cases h
      exact .plain _
    split at h
    · exact .tagged (mapError_eq_ok (mapError_eq_ok h))
    · obtain ⟨datatype, hdatatype, h⟩ := bind_eq_ok h
      exact .typed (isWellFormed_of_iri hdatatype) (mapError_eq_ok (mapError_eq_ok h))

end Syntax.IriScope

end RdfStore
