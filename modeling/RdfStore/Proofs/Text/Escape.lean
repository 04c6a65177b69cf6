import RdfStore.Text.CharClass
import RdfStore.Text.Escape

/-!
# Escaped text is read back

Decoding inverts encoding. A character is written as an escape that decodes to it, or as
itself. What is put together from characters and escapes can be decoded unless one of the escapes
has a number that no character has.
-/

set_option autoImplicit false

namespace RdfStore.Text.Escape

/-! ## Digits -/

/-- A digit has the value that it writes. -/
theorem hexValue?_hexDigit {d : Nat} (h : d < 16) : hexValue? (hexDigit d) = some d := by
  have hall : ∀ d < 16, hexValue? (hexDigit d) = some d := by decide
  exact hall d h

/-- Four digits write every number that has no more. -/
theorem hexNumber?_hex4 {n : Nat} (h : n < 65536) : hexNumber? (hex4 n) = some n := by
  have hvalue : ∀ m, hexValue? (hexDigit (m % 16)) = some (m % 16) := fun m =>
    hexValue?_hexDigit (Nat.mod_lt m (by decide))
  have hsum : ((0 * 16 + n / 4096 % 16) * 16 + n / 256 % 16) * 16 + n / 16 % 16 = n / 16 := by
    omega
  have hlast : n / 16 * 16 + n % 16 = n := by omega
  unfold hexNumber? hex4
  simp only [List.foldlM_cons, List.foldlM_nil, hvalue, Option.map_some, Option.bind_eq_bind,
    Option.bind_some, Option.pure_def, hsum, hlast]

/-- Four digits of the number of a character stand for the character. -/
theorem hexChar?_hex4 {c : Char} (h : c.toNat < 65536) : hexChar? (hex4 c.toNat) = some c := by
  have hvalid : c.toNat.isValidChar := c.valid
  rw [hexChar?, hexNumber?_hex4 h, Option.bind_some, if_pos hvalid, Char.ofNat_toNat]

/-! ## Characters -/

/-- How a character is written: by a letter after a backslash, by its number, or as it is. -/
theorem encodeChar_cases (c : Char) :
    (∃ letter, encodeChar c = ['\\', letter] ∧ single? letter = some c ∧ letter ≠ 'u' ∧
        letter ≠ 'U') ∨
      (encodeChar c = '\\' :: 'u' :: hex4 c.toNat ∧ c.toNat < 65536) ∨
      (encodeChar c = [c] ∧ c ≠ '"' ∧ c ≠ '\\' ∧ c ≠ '\n' ∧ c ≠ '\r') := by
  unfold encodeChar
  split
  · rename_i h
    subst h
    exact Or.inl ⟨'"', rfl, by decide⟩
  rename_i hquote
  split
  · rename_i h
    subst h
    exact Or.inl ⟨'\\', rfl, by decide⟩
  rename_i hslash
  split
  · rename_i h
    subst h
    exact Or.inl ⟨'n', rfl, by decide⟩
  rename_i hnewline
  split
  · rename_i h
    subst h
    exact Or.inl ⟨'r', rfl, by decide⟩
  rename_i hreturn
  split
  · rename_i h
    subst h
    exact Or.inl ⟨'t', rfl, by decide⟩
  split
  · rename_i hcontrol
    refine Or.inr (Or.inl ⟨rfl, ?_⟩)
    simp only [isControl, Bool.or_eq_true, Bool.and_eq_true, decide_eq_true_eq] at hcontrol
    omega
  · exact Or.inr (Or.inr ⟨rfl, hquote, hslash, hnewline, hreturn⟩)

/-- A character that is written as it is decodes to itself. -/
theorem decode_plain (alphabet : Alphabet) {c : Char} (h : c ≠ '\\') (rest : List Char) :
    decode alphabet (c :: rest) = (decode alphabet rest).map (c :: ·) := by
  rw [decode, if_neg h]
  all_goals
    intros
    exact h ‹c = _›

/-- A letter after a backslash decodes to what it stands for. -/
theorem decode_letter {letter c : Char} (h : single? letter = some c) (rest : List Char) :
    decode .literal ('\\' :: letter :: rest) = (decode .literal rest).map (c :: ·) := by
  rw [decode]
  · rw [h, Option.bind_some]
  · rintro _ _ _ _ _ rfl -
    cases h
  · rintro _ _ _ _ _ _ _ _ _ rfl -
    cases h

/-- A character decodes from what it is written as. -/
theorem decode_encodeChar (c : Char) (rest : List Char) :
    decode .literal (encodeChar c ++ rest) = (decode .literal rest).map (c :: ·) := by
  rcases encodeChar_cases c with ⟨letter, hc, hletter, -⟩ | ⟨hc, hsmall⟩ | ⟨hc, -, hslash, -⟩
  · rw [hc]
    exact decode_letter hletter rest
  · rw [hc]
    show (hexChar? (hex4 c.toNat)).bind (fun x => (decode .literal rest).map (x :: ·)) = _
    rw [hexChar?_hex4 hsmall, Option.bind_some]
  · rw [hc]
    exact decode_plain .literal hslash rest

/-- A text decodes from what it is written as. -/
theorem decode_encode (cs : List Char) : decode .literal (encode cs) = some cs := by
  induction cs with
  | nil => rfl
  | cons c cs ih =>
    rw [encode, List.flatMap_cons, decode_encodeChar]
    show (decode .literal (encode cs)).map _ = _
    rw [ih, Option.map_some]

/-- A text without backslashes decodes to itself. -/
theorem decode_self (alphabet : Alphabet) {cs : List Char} (h : ∀ c ∈ cs, c ≠ '\\') :
    decode alphabet cs = some cs := by
  induction cs with
  | nil => rfl
  | cons c cs ih =>
    rw [decode_plain alphabet (h c List.mem_cons_self),
      ih fun d hd => h d (List.mem_cons_of_mem c hd), Option.map_some]

/-- No double quote comes first in what is written. -/
theorem head_encode {cs : List Char} {d : Char} {tail : List Char}
    (h : encode cs = d :: tail) : d ≠ '"' := by
  cases cs with
  | nil => cases h
  | cons c cs =>
    rw [encode, List.flatMap_cons] at h
    rintro rfl
    rcases encodeChar_cases c with ⟨letter, hc, -⟩ | ⟨hc, -⟩ | ⟨hc, hquote, -⟩
    · rw [hc] at h
      cases h
    · rw [hc] at h
      cases h
    · rw [hc] at h
      cases h
      exact hquote rfl

/-! ## Escapes of no character -/

/-- The escape of a number: `u` and four digits or `U` and eight. -/
inductive IsNumeric : List Char → Nat → Prop where
  | short {digits : List Char} {n : Nat} (hlength : digits.length = 4)
    (h : hexNumber? digits = some n) : IsNumeric ('\\' :: 'u' :: digits) n
  | long {digits : List Char} {n : Nat} (hlength : digits.length = 8)
    (h : hexNumber? digits = some n) : IsNumeric ('\\' :: 'U' :: digits) n

/-- A character or an escape, whatever its number. -/
inductive IsPiece (alphabet : Alphabet) : List Char → Prop where
  | plain {c : Char} (h : c ≠ '\\') : IsPiece alphabet [c]
  | letter {letter c : Char} (halphabet : alphabet = .literal) (h : single? letter = some c) :
    IsPiece alphabet ['\\', letter]
  | numeric {piece : List Char} {n : Nat} (h : IsNumeric piece n) : IsPiece alphabet piece

/-- A text that is put together from characters and escapes. -/
def IsEscaped (alphabet : Alphabet) (cs : List Char) : Prop :=
  ∃ pieces : List (List Char), cs = pieces.flatten ∧ ∀ piece ∈ pieces, IsPiece alphabet piece

/-- After a part that can be decoded comes the escape of a number that no character has. -/
def HasBadEscape (alphabet : Alphabet) (cs : List Char) : Prop :=
  ∃ front decoded piece back n, cs = front ++ (piece ++ back) ∧
    decode alphabet front = some decoded ∧ IsNumeric piece n ∧ ¬n.isValidChar

variable {alphabet : Alphabet} {piece : List Char}

/-- An escape of a number stands for the character with the number. -/
theorem IsNumeric.decode {n : Nat} (h : IsNumeric piece n) (rest : List Char) :
    decode alphabet (piece ++ rest) =
      (if n.isValidChar then some (Char.ofNat n) else none).bind fun x =>
        (decode alphabet rest).map (x :: ·) := by
  cases h with
  | @short digits _ hlength h =>
    match digits, hlength with
    | [a, b, c, d], _ =>
      show (hexChar? [a, b, c, d]).bind (fun x => (decode alphabet rest).map (x :: ·)) = _
      rw [hexChar?, h, Option.bind_some]
  | @long digits _ hlength h =>
    match digits, hlength with
    | [a, b, c, d, e, f, g, h'], _ =>
      show (hexChar? [a, b, c, d, e, f, g, h']).bind
        (fun x => (decode alphabet rest).map (x :: ·)) = _
      rw [hexChar?, h, Option.bind_some]

/-- A piece stands for a character, if it is not an escape of none. -/
theorem IsPiece.decode (h : IsPiece alphabet piece) :
    (∃ x, ∀ rest, decode alphabet (piece ++ rest) = (decode alphabet rest).map (x :: ·)) ∨
      ∃ n, IsNumeric piece n ∧ ¬n.isValidChar := by
  cases h with
  | @plain c hc => exact .inl ⟨c, decode_plain alphabet hc⟩
  | @letter letter c halphabet hletter =>
    subst halphabet
    exact .inl ⟨c, decode_letter hletter⟩
  | @numeric _ n hnumeric =>
    by_cases hvalid : n.isValidChar
    · refine .inl ⟨Char.ofNat n, fun rest => ?_⟩
      rw [hnumeric.decode, if_pos hvalid, Option.bind_some]
    · exact .inr ⟨n, hnumeric, hvalid⟩

/-- Only an escape of no character keeps characters and escapes from being decoded. -/
theorem IsEscaped.hasBadEscape {cs : List Char} (h : IsEscaped alphabet cs)
    (hnone : Escape.decode alphabet cs = none) : HasBadEscape alphabet cs := by
  obtain ⟨pieces, rfl, h⟩ := h
  induction pieces with
  | nil => cases hnone
  | cons piece pieces ih =>
    rw [List.flatten_cons] at hnone ⊢
    rcases (h piece List.mem_cons_self).decode with ⟨x, hx⟩ | ⟨n, hnumeric, hinvalid⟩
    · rw [hx, Option.map_eq_none_iff] at hnone
      obtain ⟨front, decoded, bad, back, n, hcs, hfront, hbad⟩ :=
        ih (fun piece hpiece => h piece (List.mem_cons_of_mem _ hpiece)) hnone
      refine ⟨piece ++ front, x :: decoded, bad, back, n, ?_, ?_, hbad⟩
      · rw [hcs, List.append_assoc]
      · rw [hx, hfront, Option.map_some]
    · exact ⟨[], [], piece, pieces.flatten, n, rfl, rfl, hnumeric, hinvalid⟩

end RdfStore.Text.Escape
