import RdfStore.Value.Numeric
import Std.Data.String.ToNat

/-!
# Integers as texts

The text of an integer is its digits in base ten, after a minus sign if it is negative. White space
around it is ignored and there is none in it, so it is read back, as long as the integer is in
range: the literal of an integer denotes that integer.
-/

set_option autoImplicit false

namespace RdfStore

namespace Text

/-- A digit is no white space. -/
theorem not_isSpace_of_isDigit {c : Char} (h : c.isDigit = true) : isSpace c = false := by
  have hrange : 0x30 ≤ c.toNat ∧ c.toNat ≤ 0x39 := by
    simpa [Char.isDigit, UInt32.le_iff_toNat_le] using h
  unfold isSpace
  simp
  omega

/-- A text without white space is its own trimmed form. -/
theorem trim_eq_self {cs : List Char} (h : ∀ c ∈ cs, isSpace c = false) : trim cs = cs := by
  have hkept : ∀ text : List Char, (∀ c ∈ text, isSpace c = false) →
      text.dropWhile isSpace = text := by
    intro text htext
    cases text with
    | nil => rfl
    | cons c rest => exact List.dropWhile_cons_of_neg (by simp [htext c List.mem_cons_self])
  unfold trim
  rw [hkept cs h, hkept cs.reverse fun c hc => h c (List.mem_reverse.mp hc), List.reverse_reverse]

end Text

namespace Integer

/-! ## Range -/

/-- A number passes the check of its range unchanged, or not at all. -/
theorem checked_eq_some_iff {m n : Int} : checked m = some n ↔ InRange m ∧ m = n := by
  unfold checked
  split <;> simp [*]

/-- A number in range passes the check. -/
theorem checked_of_inRange {n : Int} (h : InRange n) : checked n = some n :=
  checked_eq_some_iff.mpr ⟨h, rfl⟩

/-- What has passed the check is in range. -/
theorem inRange_of_checked {m n : Int} (h : checked m = some n) : InRange n := by
  obtain ⟨hrange, rfl⟩ := checked_eq_some_iff.mp h
  exact hrange

/-- A number that is read is in range. -/
theorem inRange_of_read? {cs : List Char} {n : Int} (h : read? cs = some n) : InRange n := by
  unfold read? at h
  split at h
  all_goals
    obtain ⟨m, -, hm⟩ := Option.bind_eq_some_iff.mp h
    exact inRange_of_checked hm

/-! ## Digits -/

/-- The characters of a number in decimal are digits. -/
theorem isDigit_of_mem_digits {m : Nat} {c : Char} (h : c ∈ Nat.toDigits 10 m) :
    c.isDigit = true :=
  Nat.isDigit_of_mem_toDigits (by decide) (by decide) h

/-- A digit is an ASCII digit. -/
theorem isAsciiDigit_of_isDigit {c : Char} (h : c.isDigit = true) :
    Text.isAsciiDigit c = true := by
  simpa [Char.isDigit, Text.isAsciiDigit, UInt32.le_iff_toNat_le] using h

/-- The digits of a number have its value. -/
theorem ofDigits_toDigits (m : Nat) : ofDigits (Nat.toDigits 10 m) = m := by
  have hfold : ∀ (digits : List Char) (start : Nat),
      digits.foldl (fun n c => n * 10 + (c.toNat - 0x30)) start =
        Nat.ofDigitChars 10 digits start := by
    intro digits
    induction digits with
    | nil => intro start; rfl
    | cons c rest ih =>
      intro start
      rw [List.foldl_cons, ih, Nat.ofDigitChars_cons, Nat.mul_comm]
      rfl
  exact (hfold _ 0).trans Nat.ofDigitChars_ten_toDigits

/-- The digits of a number are read as the number. -/
theorem natural?_toDigits (m : Nat) : natural? (Nat.toDigits 10 m) = some m := by
  have hall : (Nat.toDigits 10 m).all Text.isAsciiDigit = true :=
    List.all_eq_true.mpr fun c hc => isAsciiDigit_of_isDigit (isDigit_of_mem_digits hc)
  have hne : Nat.toDigits 10 m ≠ [] := Nat.toDigits_ne_nil
  unfold natural?
  rw [hall, ofDigits_toDigits]
  simp [hne]

/-! ## Texts -/

/-- The text of a number. -/
def text (n : Int) : List Char := (toString n).toList

/-- A natural number is written in its digits. -/
theorem text_ofNat (m : Nat) : text (.ofNat m) = Nat.toDigits 10 m := by
  show (toString m).toList = _
  rw [Nat.toString_eq_ofList_toDigits, String.toList_ofList]

/-- A negative number is written with a sign in front of its digits. -/
theorem text_negSucc (m : Nat) : text (.negSucc m) = '-' :: Nat.toDigits 10 (m + 1) := by
  show ("-" ++ toString (m + 1)).toList = _
  rw [String.toList_append, Nat.toString_eq_ofList_toDigits]
  exact congrArg ('-' :: ·) String.toList_ofList

/-- Digits are read without a sign, as there is none before them. -/
theorem read?_toDigits (m : Nat) : read? (Nat.toDigits 10 m) = checked m := by
  have hdigits := fun c => @isDigit_of_mem_digits m c
  have hread : read? (Nat.toDigits 10 m) =
      (natural? (Nat.toDigits 10 m)).bind fun n => checked n := by
    unfold read?
    split
    · rename_i heq
      exact absurd (hdigits '+' (heq ▸ List.mem_cons_self)) (by decide)
    · rename_i heq
      exact absurd (hdigits '-' (heq ▸ List.mem_cons_self)) (by decide)
    · rfl
  rw [hread, natural?_toDigits]
  rfl

/-- What is written of a number is read back, if it is in range. -/
theorem read?_text (n : Int) : read? (text n) = checked n := by
  cases n with
  | ofNat m =>
    rw [text_ofNat, read?_toDigits, Int.ofNat_eq_natCast]
  | negSucc m =>
    rw [text_negSucc, read?, natural?_toDigits, Option.bind_some, Int.negSucc_eq]
    norm_cast

/-- The text of a number has no white space around it. -/
theorem trim_text (n : Int) : Text.trim (text n) = text n := by
  have hdigits : ∀ m : Nat, ∀ c ∈ Nat.toDigits 10 m, Text.isSpace c = false :=
    fun m c hc => Text.not_isSpace_of_isDigit (isDigit_of_mem_digits hc)
  apply Text.trim_eq_self
  cases n with
  | ofNat m =>
    rw [text_ofNat]
    exact hdigits m
  | negSucc m =>
    rw [text_negSucc]
    exact List.forall_mem_cons.mpr ⟨by decide, hdigits (m + 1)⟩

end Integer

/-! ## Literals -/

/-- The literal of a natural number holds its digits. -/
theorem Literal.ofInt_natCast (m : Nat) :
    Literal.ofInt (m : Int) =
      .typed (String.ofList (Nat.toDigits 10 m)) Vocabulary.xsdInteger := by
  show Literal.typed (toString m) Vocabulary.xsdInteger = _
  rw [Nat.toString_eq_ofList_toDigits]

namespace Numeric

/-- The datatype of integers is the kind of integers. -/
theorem Kind.ofDatatype?_xsdInteger :
    Kind.ofDatatype? Vocabulary.xsdInteger = some .integer := by decide

/-- A literal of an integer datatype denotes the integer that its text is read as. -/
theorem ofTerm?_of_integer {l : Literal} (h : Kind.ofDatatype? l.datatype = some .integer) :
    ofTerm? (.literal l) = (Integer.read? (Text.trim l.value.toList)).map integer := by
  show (Kind.ofDatatype? l.datatype).bind _ = _
  rw [h]
  rfl

/-- The literal of a number is read as the number, if this is in range. -/
theorem read?_ofInt (n : Int) :
    Integer.read? (Text.trim (Literal.ofInt n).value.toList) = Integer.checked n := by
  show Integer.read? (Text.trim (Integer.text n)) = _
  rw [Integer.trim_text, Integer.read?_text]

/-- The literal of an integer denotes it, if it is in range. -/
theorem ofTerm?_ofInt (n : Int) :
    ofTerm? (.literal (Literal.ofInt n)) = (Integer.checked n).map integer := by
  have hkind : Kind.ofDatatype? (Literal.ofInt n).datatype = some .integer :=
    Kind.ofDatatype?_xsdInteger
  rw [ofTerm?_of_integer hkind, read?_ofInt]

end Numeric

end RdfStore
