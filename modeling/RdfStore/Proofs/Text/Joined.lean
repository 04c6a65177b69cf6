import Mathlib.Data.List.Basic

/-!
# Texts put together and their bytes

The characters of texts that are joined, with or without a separator, are those of the texts and
of the separator. The bytes of a text are those of its characters, one after the other, and only
the character NUL has a zero among its bytes.
-/

set_option autoImplicit false

namespace RdfStore.Text

variable {c : Char}

/-! ## Characters -/

/-- Texts with a separator: the first one, and the separator in front of every other one. -/
theorem toList_intercalate_cons (separator text : String) (texts : List String) :
    (String.intercalate separator (text :: texts)).toList =
      text.toList ++ texts.flatMap fun t => separator.toList ++ t.toList := by
  rw [String.toList_intercalate]
  induction texts generalizing text with
  | nil => simp
  | cons other texts ih =>
    rw [List.map_cons, List.map_cons, List.intercalate_cons_cons, ← List.map_cons, ih,
      List.flatMap_cons, List.append_assoc, List.append_assoc]

/-- The characters of joined texts are those of each. -/
theorem mem_toList_join {texts : List String} :
    c ∈ (String.join texts).toList ↔ ∃ t ∈ texts, c ∈ t.toList := by
  rw [String.toList_join, List.mem_flatMap]

/-- A character that is not in the separator comes from one of the texts. -/
theorem mem_toList_intercalate {separator : String} {texts : List String}
    (hc : c ∉ separator.toList) :
    c ∈ (separator.intercalate texts).toList ↔ ∃ t ∈ texts, c ∈ t.toList := by
  cases texts with
  | nil => simp
  | cons text texts =>
    rw [toList_intercalate_cons]
    simp [hc]

/-! ## NUL -/

/-- A text with the character NUL in it. -/
def HasNul (s : String) : Prop := '\x00' ∈ s.toList

instance (s : String) : Decidable (HasNul s) := inferInstanceAs (Decidable ('\x00' ∈ s.toList))

section Nul

variable {s t separator : String} {texts : List String}

/-- Two texts have a NUL if one of them has. -/
theorem hasNul_append : HasNul (s ++ t) ↔ HasNul s ∨ HasNul t := by
  rw [HasNul, String.toList_append, List.mem_append]
  rfl

/-- Joined texts have a NUL if one of them has. -/
theorem hasNul_join : HasNul (String.join texts) ↔ ∃ s ∈ texts, HasNul s := mem_toList_join

/-- Texts joined by a separator without NUL have one if one of them has. -/
theorem hasNul_intercalate (h : ¬HasNul separator) :
    HasNul (separator.intercalate texts) ↔ ∃ s ∈ texts, HasNul s := mem_toList_intercalate h

/-- Two texts without NUL have none together. -/
theorem not_hasNul_append (hs : ¬HasNul s) (ht : ¬HasNul t) : ¬HasNul (s ++ t) := by
  rw [hasNul_append]
  exact not_or.mpr ⟨hs, ht⟩

/-- Joined texts have no NUL if none of them has. -/
theorem not_hasNul_join (h : ∀ s ∈ texts, ¬HasNul s) : ¬HasNul (String.join texts) := by
  rw [hasNul_join]
  rintro ⟨s, hs, hnul⟩
  exact h s hs hnul

/-- Texts joined by a separator have no NUL if neither it nor any of them has. -/
theorem not_hasNul_intercalate (hseparator : ¬HasNul separator) (h : ∀ s ∈ texts, ¬HasNul s) :
    ¬HasNul (separator.intercalate texts) := by
  rw [hasNul_intercalate hseparator]
  rintro ⟨s, hs, hnul⟩
  exact h s hs hnul

/-- A text of printable characters has no NUL. -/
theorem not_hasNul_of_le (h : ∀ c ∈ s.toList, 0x20 ≤ c.toNat) : ¬HasNul s := fun hnul =>
  absurd (h _ hnul) (by decide)

end Nul

/-! ## Bytes -/

/-- The octets of a list are the list. -/
theorem toList_toByteArray (bytes : List UInt8) : bytes.toByteArray.toList = bytes := by
  have hdata : bytes.toByteArray.data.toList = bytes := List.toList_data_toByteArray
  -- the loop puts the bytes from index `i` on in front of those that it has, and turns all around
  have hloop : ∀ (i : Nat) (done : List UInt8),
      ByteArray.toList.loop bytes.toByteArray i done = done.reverse ++ bytes.drop i := by
    intro i done
    fun_induction ByteArray.toList.loop bytes.toByteArray i done with
    | case1 i done h ih =>
      have hi : i < bytes.length := by
        rw [← hdata]
        exact h
      have hget : bytes.toByteArray.get! i = bytes[i] := by
        show bytes.toByteArray.data[i]! = _
        rw [getElem!_pos bytes.toByteArray.data i h, ← Array.getElem_toList]
        exact List.getElem_of_eq hdata _
      rw [ih, hget, List.reverse_cons, List.append_assoc, List.drop_eq_getElem_cons hi]
      rfl
    | case2 i done h =>
      have hi : bytes.length ≤ i := by
        rw [← hdata]
        exact Nat.le_of_not_lt h
      rw [List.drop_eq_nil_of_le hi, List.append_nil]
  exact hloop 0 []

/-- The bytes of a text are those of its characters. -/
theorem toList_toUTF8 (s : String) : s.toUTF8.toList = s.toList.flatMap String.utf8EncodeChar := by
  conv_lhs => rw [← String.ofList_toList (s := s)]
  rw [String.toUTF8_eq_toByteArray, String.toByteArray_ofList]
  exact toList_toByteArray _

/-- A number that 256 does not divide has an octet other than zero. -/
theorem zero_ne_ofNat {n : Nat} (h : n % 256 ≠ 0) : (0 : UInt8) ≠ UInt8.ofNat n := by
  intro heq
  refine h ?_
  rw [← UInt8.toNat_ofNat', ← heq]
  rfl

/-- The bytes of a character beyond ASCII are all marked. -/
theorem zero_notMem_utf8EncodeChar (h : 127 < c.val.toNat) :
    (0 : UInt8) ∉ String.utf8EncodeChar c := by
  unfold String.utf8EncodeChar
  dsimp only
  rw [if_neg (by omega)]
  split
  · simp only [List.mem_cons, List.not_mem_nil, or_false]
    rintro (hb | hb) <;> exact zero_ne_ofNat (by omega) hb
  split
  · simp only [List.mem_cons, List.not_mem_nil, or_false]
    rintro (hb | hb | hb) <;> exact zero_ne_ofNat (by omega) hb
  · simp only [List.mem_cons, List.not_mem_nil, or_false]
    rintro (hb | hb | hb | hb) <;> exact zero_ne_ofNat (by omega) hb

/-- Only the character NUL has a zero among its bytes. -/
theorem zero_mem_utf8EncodeChar :
    (0 : UInt8) ∈ String.utf8EncodeChar c ↔ c = '\x00' := by
  constructor
  · intro h
    rcases Nat.lt_or_ge 127 c.val.toNat with hlong | hshort
    · exact absurd h (zero_notMem_utf8EncodeChar hlong)
    · unfold String.utf8EncodeChar at h
      dsimp only at h
      rw [if_pos hshort, List.mem_singleton] at h
      have hzero : c.val.toNat = 0 := by
        by_contra hpos
        exact zero_ne_ofNat (by omega) h
      exact Char.toNat_inj.mp hzero
  · rintro rfl
    decide

/-- A text has a zero among its bytes when it has a NUL, and only then. -/
theorem zero_mem_toUTF8 {s : String} : 0 ∈ s.toUTF8.toList ↔ HasNul s := by
  simp only [HasNul, toList_toUTF8, List.mem_flatMap, zero_mem_utf8EncodeChar, exists_eq_right]

end RdfStore.Text
