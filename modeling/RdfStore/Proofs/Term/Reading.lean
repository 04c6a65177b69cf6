import RdfStore.Proofs.Outcome
import RdfStore.Proofs.Term.WellFormed
import RdfStore.Proofs.Text.Escape
import RdfStore.Term.Reader

/-!
# The text of one term is read back

The reader of single terms makes well-formed terms only, and it reads every well-formed term
from what is written for it. A written term has no control characters, so it can stand in a
line and in a column of a table.
-/

set_option autoImplicit false

namespace RdfStore

open RdfStore.Text

/-! ## Characters -/

/-- No control character and no blank stands in a name. -/
theorem Text.lt_toNat_of_isNameChar {c : Char} (h : isNameChar c = true) : 0x20 < c.toNat := by
  rcases Nat.lt_or_ge 0x20 c.toNat with hhigh | hlow
  · exact hhigh
  · have hall : ∀ n ≤ 0x20, isNameChar (Char.ofNat n) = false := by decide
    have hnone := hall c.toNat hlow
    rw [Char.ofNat_toNat, h] at hnone
    cases hnone

/-- A letter or digit of ASCII can stand in a name. -/
theorem Text.isNameChar_of_isAsciiAlphanumeric {c : Char} (h : isAsciiAlphanumeric c = true) :
    isNameChar c = true := by
  rcases Bool.or_eq_true_iff.mp h with h | h <;> simp [isNameChar, isNameStart, isNameBase, h]

/-- A character that starts a label can stand in a name. -/
theorem Text.isNameChar_of_isLabelStart {c : Char} (h : isLabelStart c = true) :
    isNameChar c = true := by
  rcases Bool.or_eq_true_iff.mp h with h | h <;> simp [isNameChar, h]

/-- Neither a control character nor a blank, nor what delimits an IRI, stands in one. -/
theorem Iri.IsWellFormed.char {i : Iri} (h : i.IsWellFormed) {c : Char} (hc : c ∈ i.text.toList) :
    0x20 < c.toNat ∧ c ≠ '\\' := by
  have hallowed := List.all_eq_true.mp h.valid.1 c hc
  simp only [Validity.isIriForbidden, Bool.not_eq_true', Bool.or_eq_false_iff,
    decide_eq_false_iff_not, beq_eq_false_iff_ne] at hallowed
  obtain ⟨hrest, hslash⟩ := hallowed
  refine ⟨?_, hslash⟩
  omega

/-- The characters of a label are those of names, and dots. -/
theorem Validity.char_of_isLabel {cs : List Char} (h : isLabel cs = true) {c : Char}
    (hc : c ∈ cs) : isNameChar c = true ∨ c = '.' := by
  cases cs with
  | nil => cases h
  | cons d rest =>
    obtain ⟨h, -⟩ := Bool.and_eq_true_iff.mp h
    obtain ⟨hfirst, hall⟩ := Bool.and_eq_true_iff.mp h
    rcases List.mem_cons.mp hc with rfl | hc
    · exact .inl (isNameChar_of_isLabelStart hfirst)
    · exact (Bool.or_eq_true_iff.mp (List.all_eq_true.mp hall c hc)).imp_right eq_of_beq

/-- No character of a label is a control character or a blank. -/
theorem Validity.lt_toNat_of_isLabel {cs : List Char} (h : isLabel cs = true) {c : Char}
    (hc : c ∈ cs) : 0x20 < c.toNat := by
  rcases char_of_isLabel h hc with hname | rfl
  · exact lt_toNat_of_isNameChar hname
  · decide

/-- The characters of a language tag are letters, digits and hyphens. -/
theorem Validity.isNameChar_of_isSubtagRest {cs : List Char}
    (h : isSubtags.isSubtagRest cs = true) {c : Char} (hc : c ∈ cs) : isNameChar c = true := by
  fun_induction isSubtags.isSubtagRest cs with
  | case1 => cases hc
  | case2 d rest ih =>
    obtain ⟨hd, hrest⟩ := Bool.and_eq_true_iff.mp h
    rcases List.mem_cons.mp hc with rfl | hc
    · decide
    rcases List.mem_cons.mp hc with rfl | hc
    · exact isNameChar_of_isAsciiAlphanumeric hd
    · exact ih hrest hc
  | case3 d rest _ ih =>
    obtain ⟨hd, hrest⟩ := Bool.and_eq_true_iff.mp h
    rcases List.mem_cons.mp hc with rfl | hc
    · exact isNameChar_of_isAsciiAlphanumeric hd
    · exact ih hrest hc

/-- The characters of a language tag can stand in a name. -/
theorem Validity.isNameChar_of_isLanguageTag {cs : List Char} (h : isLanguageTag cs = true)
    {c : Char} (hc : c ∈ cs) : isNameChar c = true := by
  obtain ⟨-, hsubtags⟩ := Bool.and_eq_true_iff.mp h
  rw [← List.takeWhile_append_dropWhile (p := isAsciiLetter) (l := cs), List.mem_append] at hc
  rcases hc with hc | hc
  · have hletter := List.all_eq_true.mp List.all_takeWhile c hc
    exact isNameChar_of_isAsciiAlphanumeric (by simp [isAsciiAlphanumeric, hletter])
  -- subtags are the rest of a subtag whose first hyphen is known
  have hrest : isSubtags.isSubtagRest (cs.dropWhile isAsciiLetter) = true := by
    revert hsubtags
    unfold isSubtags
    split <;> intro hsubtags
    · rename_i hnil
      rw [hnil]
      rfl
    · rename_i d rest hcons
      rw [hcons, isSubtags.isSubtagRest]
      exact hsubtags
    · cases hsubtags
  exact isNameChar_of_isSubtagRest hrest hc

/-- Beyond the control characters of Latin-1 nothing is escaped. -/
theorem Text.Escape.encodeChar_of_le {c : Char} (h : 0xA0 ≤ c.toNat) : encodeChar c = [c] := by
  have hne : ∀ d : Char, d.toNat < 0xA0 → c ≠ d := by
    rintro d hd rfl
    omega
  have hcontrol : isControl c = false := by
    simp [isControl]
    omega
  simp [encodeChar, hne, hcontrol]

/-- No control character stands in an encoded text. -/
theorem Text.Escape.le_toNat_of_mem_encode {cs : List Char} {c : Char} (hc : c ∈ encode cs) :
    0x20 ≤ c.toNat := by
  obtain ⟨d, -, hc⟩ := List.mem_flatMap.mp hc
  rcases Nat.lt_or_ge d.toNat 0xA0 with hd | hd
  · have hall : ∀ n < 0xA0, ((encodeChar (Char.ofNat n)).all fun c => 0x20 ≤ c.toNat) = true := by
      decide +kernel
    have hencoded := hall d.toNat hd
    rw [Char.ofNat_toNat] at hencoded
    exact of_decide_eq_true (List.all_eq_true.mp hencoded c hc)
  · rw [encodeChar_of_le hd, List.mem_singleton] at hc
    subst hc
    omega

/-! ## What is written -/

/-- A text of printable characters has no others. -/
theorem le_toNat_of_all {cs : List Char} (h : cs.all (fun c => 0x20 ≤ c.toNat) = true) {c : Char}
    (hc : c ∈ cs) : 0x20 ≤ c.toNat :=
  of_decide_eq_true (List.all_eq_true.mp h c hc)

/-- Every character of a written address is printable. -/
theorem Iri.IsWellFormed.le_toNat {i : Iri} (h : i.IsWellFormed) {c : Char}
    (hc : c ∈ i.written.toList) : 0x20 ≤ c.toNat := by
  simp only [Iri.written, String.toList_append, List.mem_append, String.reduceToList] at hc
  rcases hc with (hc | hc) | hc
  · exact le_toNat_of_all (by decide) hc
  · exact Nat.le_of_lt (h.char hc).1
  · exact le_toNat_of_all (by decide) hc

/-- Every character of a quoted literal is printable. -/
theorem Literal.le_toNat_of_mem_quoted {l : Literal} {c : Char} (hc : c ∈ l.quoted.toList) :
    0x20 ≤ c.toNat := by
  simp only [Literal.quoted, String.toList_append, String.toList_ofList, List.mem_append,
    String.reduceToList] at hc
  rcases hc with (hc | hc) | hc
  · exact le_toNat_of_all (by decide) hc
  · exact Escape.le_toNat_of_mem_encode hc
  · exact le_toNat_of_all (by decide) hc

/-- No control character is written for a well-formed term. -/
theorem Term.IsWellFormed.le_toNat {t : Term} (h : t.IsWellFormed) {c : Char}
    (hc : c ∈ t.written.toList) : 0x20 ≤ c.toNat := by
  cases t with
  | iri i => exact Iri.IsWellFormed.le_toNat h hc
  | blank b =>
    have hlabel := BlankNode.IsWellFormed.valid h
    simp only [Term.written, BlankNode.written, String.toList_append, List.mem_append,
      String.reduceToList] at hc
    rcases hc with hc | hc
    · exact le_toNat_of_all (by decide) hc
    · exact Nat.le_of_lt (Validity.lt_toNat_of_isLabel hlabel hc)
  | literal l =>
    rcases Literal.IsWellFormed.kind_cases h with hkind | ⟨tag, hkind, htag, -⟩ |
      ⟨datatype, hkind, hdatatype, -⟩
    · simp only [Term.written, Literal.written, hkind] at hc
      exact Literal.le_toNat_of_mem_quoted hc
    · simp only [Term.written, Literal.written, hkind, String.toList_append, List.mem_append,
        String.reduceToList] at hc
      rcases hc with (hc | hc) | hc
      · exact Literal.le_toNat_of_mem_quoted hc
      · exact le_toNat_of_all (by decide) hc
      · exact Nat.le_of_lt (lt_toNat_of_isNameChar (Validity.isNameChar_of_isLanguageTag htag hc))
    · simp only [Term.written, Literal.written, hkind, String.toList_append, List.mem_append,
        String.reduceToList] at hc
      rcases hc with (hc | hc) | hc
      · exact Literal.le_toNat_of_mem_quoted hc
      · exact le_toNat_of_all (by decide) hc
      · exact hdatatype.le_toNat hc

/-! ## Reading back -/

/-- What stands between two enclosing characters is taken out of them. -/
theorem enclosed?_append (first last : Char) (cs : List Char) :
    enclosed? first last (first :: (cs ++ [last])) = some cs := by
  simp [enclosed?]

/-- A text without backslashes is the text of an IRI as it stands. -/
theorem decodeIri_of_isWellFormed {i : Iri} (h : i.IsWellFormed) :
    decodeIri i.text.toList = .ok i.text := by
  rw [decodeIri, Escape.decode_self .iri fun c hc => (h.char hc).2]
  exact congrArg Except.ok String.ofList_toList

/-- A character that is neither a backslash nor a quote is passed over on the way to the closing
quote. -/
theorem splitAtQuote_cons {c : Char} (hslash : c ≠ '\\') (hquote : c ≠ '"') (rest : List Char) :
    splitAtQuote (c :: rest) = (splitAtQuote rest).map fun r => (c :: r.1, r.2) := by
  rw [splitAtQuote, if_neg hquote]
  rintro _ _ rfl
  contradiction

/-- An escaped character is passed over on the way to the closing quote. -/
theorem splitAtQuote_encodeChar (c : Char) (rest : List Char) :
    splitAtQuote (Escape.encodeChar c ++ rest) =
      (splitAtQuote rest).map fun r => (Escape.encodeChar c ++ r.1, r.2) := by
  have hdigit : ∀ n, Escape.hexDigit (n % 16) ≠ '\\' ∧ Escape.hexDigit (n % 16) ≠ '"' := fun n =>
    have hall : ∀ d < 16, Escape.hexDigit d ≠ '\\' ∧ Escape.hexDigit d ≠ '"' := by decide
    hall _ (Nat.mod_lt n (by decide))
  rcases Escape.encodeChar_cases c with ⟨letter, hc, -⟩ | ⟨hc, -⟩ | ⟨hc, hquote, hslash, -⟩
  · rw [hc]
    rfl
  · rw [hc]
    simp [splitAtQuote, Escape.hex4, splitAtQuote_cons, hdigit, Function.comp_def]
  · rw [hc]
    exact splitAtQuote_cons hslash hquote rest

/-- An encoded text ends at the quote behind it. -/
theorem splitAtQuote_encode (cs rest : List Char) :
    splitAtQuote (Escape.encode cs ++ '"' :: rest) = some (Escape.encode cs, rest) := by
  induction cs with
  | nil => rfl
  | cons c cs ih =>
    rw [Escape.encode, List.flatMap_cons, List.append_assoc, splitAtQuote_encodeChar]
    show (splitAtQuote (Escape.encode cs ++ '"' :: rest)).map _ = _
    rw [ih]
    rfl

/-- A lexical form is decoded from its escaped form. -/
theorem decodeLiteral_encode (value : String) :
    decodeLiteral (Escape.encode value.toList) = .ok value := by
  rw [decodeLiteral, Escape.decode_encode]
  exact congrArg Except.ok String.ofList_toList

/-- A quoted lexical form is read with what stands behind it. -/
theorem Literal.readQuoted_encode (value : String) (suffix : List Char) :
    Literal.readQuoted (Escape.encode value.toList ++ '"' :: suffix) =
      Literal.ofParts ('"' :: (Escape.encode value.toList ++ '"' :: suffix)) value suffix := by
  rw [Literal.readQuoted, splitAtQuote_encode]
  show (decodeLiteral (Escape.encode value.toList) >>= _) = _
  rw [decodeLiteral_encode]
  rfl

/-- What stands behind the lexical form of a well-formed literal says what it carries. -/
theorem Literal.ofParts_of_isWellFormed {l : Literal} (h : l.IsWellFormed) :
    ∃ suffix, l.written.toList = '"' :: (Escape.encode l.value.toList ++ '"' :: suffix) ∧
      ∀ written, Literal.ofParts written l.value suffix = .ok l := by
  obtain ⟨value, kind⟩ := l
  rcases h.kind_cases with hkind | ⟨tag, hkind, -, htag⟩ | ⟨datatype, hkind, hdatatype, htyped⟩ <;>
    cases hkind
  · refine ⟨[], ?_, fun written => rfl⟩
    simp [Literal.written, Literal.quoted]
  · refine ⟨'@' :: tag.toList, ?_, fun written => ?_⟩
    · simp [Literal.written, Literal.quoted]
    · rw [Literal.ofParts, String.ofList_toList]
      exact htag
  · refine ⟨'^' :: '^' :: '<' :: (datatype.text.toList ++ ['>']), ?_, fun written => ?_⟩
    · simp [Literal.written, Literal.quoted, Iri.written]
    · rw [Literal.ofParts, enclosed?_append]
      show (decodeIri datatype.text.toList >>= _) = _
      rw [decodeIri_of_isWellFormed hdatatype]
      show (Iri.of datatype.text >>= _) = _
      rw [hdatatype]
      exact htyped

/-- A text that starts with a double quote is the text of a literal. -/
theorem Term.read_quote {text : String} {body : List Char} (h : text.toList = '"' :: body) :
    Term.read text = Term.literal <$> Literal.readQuoted body := by
  have hscheme : Validity.afterScheme? ('"' :: body) = none := by
    simp [Validity.afterScheme?, isAsciiLetter]
  have henclosed : enclosed? '<' '>' ('"' :: body) = none := by
    simp [enclosed?]
  simp only [Term.read, h, henclosed, hscheme]
  rfl

/-- A well-formed term is read from what is written for it. -/
theorem Term.read_written {t : Term} (h : t.IsWellFormed) : Term.read t.written = .ok t := by
  cases t with
  | iri i =>
    have hi : Iri.of i.text = .ok i := h
    have htext : (Term.iri i).written.toList = '<' :: (i.text.toList ++ ['>']) := by
      simp [Term.written, Iri.written]
    simp only [Term.read, htext, enclosed?_append]
    show (decodeIri i.text.toList >>= _) = _
    rw [decodeIri_of_isWellFormed h]
    show Term.iri <$> Iri.of i.text = _
    rw [hi]
    rfl
  | blank b =>
    have hb : BlankNode.of b.label = .ok b := h
    have htext : (Term.blank b).written.toList = '_' :: ':' :: b.label.toList := by
      simp [Term.written, BlankNode.written]
    rw [Term.read, htext]
    show Term.blank <$> BlankNode.of (String.ofList b.label.toList) = _
    rw [String.ofList_toList, hb]
    rfl
  | literal l =>
    obtain ⟨suffix, htext, hparts⟩ := Literal.ofParts_of_isWellFormed h
    have htext : (Term.literal l).written.toList = _ := htext
    rw [Term.read_quote htext, Literal.readQuoted_encode, hparts]
    rfl

/-! ## What is read -/

/-- An address that was made of a text is well formed. -/
theorem Iri.isWellFormed_of_of {text : String} {i : Iri} (h : Iri.of text = .ok i) :
    i.IsWellFormed := by
  obtain ⟨rfl, -⟩ := Iri.of_eq_ok h
  exact h

/-- A blank node that was made of a label is well formed. -/
theorem BlankNode.isWellFormed_of_of {label : String} {b : BlankNode}
    (h : BlankNode.of label = .ok b) : b.IsWellFormed := by
  have hlabel : b = ⟨label⟩ := by
    unfold BlankNode.of at h
    split at h
    · exact (Except.ok.inj h).symm
    · cases h
  rw [hlabel] at h ⊢
  exact h

/-- A literal that was made of its parts is well formed. -/
theorem Literal.isWellFormed_of_ofParts {written suffix : List Char} {value : String} {l : Literal}
    (h : Literal.ofParts written value suffix = .ok l) : l.IsWellFormed := by
  unfold Literal.ofParts at h
  split at h
  · cases h
    exact .plain value
  · exact .tagged h
  · split at h
    · obtain ⟨text, -, h⟩ := bind_eq_ok h
      obtain ⟨datatype, hdatatype, h⟩ := bind_eq_ok h
      exact .typed (Iri.isWellFormed_of_of hdatatype) h
    · cases h
  · cases h

/-- A literal that was read behind its quote is well formed. -/
theorem Literal.isWellFormed_of_readQuoted {body : List Char} {l : Literal}
    (h : Literal.readQuoted body = .ok l) : l.IsWellFormed := by
  unfold Literal.readQuoted at h
  split at h
  · obtain ⟨value, -, h⟩ := bind_eq_ok h
    exact Literal.isWellFormed_of_ofParts h
  · cases h

/-- Every term that is read is well-formed. -/
theorem Term.isWellFormed_of_read {text : String} {t : Term} (h : Term.read text = .ok t) :
    t.IsWellFormed := by
  have hiri : ∀ {text t}, Term.iri <$> Iri.of text = .ok t → t.IsWellFormed := by
    intro text t h
    obtain ⟨i, hi, rfl⟩ := map_eq_ok h
    exact Iri.isWellFormed_of_of hi
  unfold Term.read at h
  dsimp only at h
  split at h
  · obtain ⟨b, hb, rfl⟩ := map_eq_ok h
    exact BlankNode.isWellFormed_of_of hb
  split at h
  · obtain ⟨decoded, -, h⟩ := bind_eq_ok h
    exact hiri h
  split at h
  · exact hiri h
  split at h
  · obtain ⟨l, hl, rfl⟩ := map_eq_ok h
    exact Literal.isWellFormed_of_readQuoted hl
  · obtain ⟨value, -, rfl⟩ := map_eq_ok h
    exact .plain value

/-- A triple of terms that are read is well-formed. -/
theorem Triple.isWellFormed_of_read {subject predicate object : String} {t : Triple}
    (h : Triple.read subject predicate object = .ok t) : t.IsWellFormed := by
  obtain ⟨s, hs, h⟩ := bind_eq_ok h
  obtain ⟨p, hp, h⟩ := bind_eq_ok h
  obtain ⟨o, ho, h⟩ := bind_eq_ok h
  cases h
  obtain ⟨x, hx, hs⟩ := bind_eq_ok hs
  obtain ⟨y, hy, hp⟩ := bind_eq_ok hp
  have hx := Term.isWellFormed_of_read hx
  have hy := Term.isWellFormed_of_read hy
  refine ⟨?_, ?_, Term.isWellFormed_of_read ho⟩
  · cases x with
    | iri | blank =>
      cases hs
      exact hx
    | literal => cases hs
  · cases y with
    | iri =>
      cases hp
      exact hy
    | blank | literal => cases hp

end RdfStore
