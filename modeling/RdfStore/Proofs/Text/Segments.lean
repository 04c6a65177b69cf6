import Mathlib.Data.List.Basic
import Mathlib.Data.Nat.Digits.Defs
import RdfStore.Proofs.Text.Escape

/-!
# Segments of escaped text

An escaped text falls into segments: characters that stand for themselves, letters behind a
backslash and numbers behind one. It does so in one way only, because a backslash starts an escape
wherever it is not itself the letter of one. A text in segments cannot be decoded if one of its
numbers is that of a surrogate or lies beyond the last character; otherwise it decodes to the
characters of its segments.
-/

set_option autoImplicit false

namespace RdfStore.Text.Escape

/-- A character that stands for itself, or an escape. -/
inductive Segment where
  | plain (c : Char)
  /-- A letter behind a backslash. -/
  | letter (c : Char)
  /-- A number of four digits, behind a backslash and `u`. -/
  | short (digits : List Char)
  /-- A number of eight digits, behind a backslash and `U`. -/
  | long (digits : List Char)

/-- The letters of escapes and the characters that they stand for. -/
def letters : List (Char × Char) :=
  [('t', '\x09'), ('b', '\x08'), ('n', '\x0A'), ('r', '\x0D'), ('f', '\x0C'), ('"', '"'),
    ('\x27', '\x27'), ('\\', '\\')]

/-- The value of a hexadecimal digit is its place among all of them. -/
def digitValue (c : Char) : Nat := "0123456789abcdef".toList.idxOf (asciiLower c)

/-- The number that digits write in base sixteen, the most significant first. -/
def writtenNumber (digits : List Char) : Nat := Nat.ofDigits 16 (digits.map digitValue).reverse

/-- The numbers that no character has: those of surrogates, and those beyond the last character. -/
def IsUnassigned (n : Nat) : Prop := 0xD800 ≤ n ∧ n ≤ 0xDFFF ∨ 0x10FFFF < n

namespace Segment

/-- How a segment is written. -/
def text : Segment → List Char
  | plain c => [c]
  | letter c => ['\\', c]
  | short digits => '\\' :: 'u' :: digits
  | long digits => '\\' :: 'U' :: digits

/-- A backslash stands only in front of a letter of the table or of as many digits as it needs. -/
def IsProper : Segment → Prop
  | plain c => c ≠ '\\'
  | letter c => c ∈ letters.map Prod.fst
  | short digits => digits.length = 4 ∧ ∀ d ∈ digits, isHexDigit d = true
  | long digits => digits.length = 8 ∧ ∀ d ∈ digits, isHexDigit d = true

/-- The number of a character, if the segment gives it. -/
def number? : Segment → Option Nat
  | plain _ | letter _ => none
  | short digits | long digits => some (writtenNumber digits)

/-- The segment gives a number, and no character has it. -/
def NamesNone (s : Segment) : Prop := ∃ n ∈ s.number?, IsUnassigned n

/-- The character that a segment stands for. -/
def character : Segment → Char
  | plain c => c
  | letter c => (letters.lookup c).getD c
  | short digits | long digits => Char.ofNat (writtenNumber digits)

end Segment

/-- A text falls into segments. -/
structure IsSplitInto (cs : List Char) (segments : List Segment) : Prop where
  proper : ∀ s ∈ segments, s.IsProper
  text_eq : cs = segments.flatMap Segment.text

variable {s other : Segment} {segments more : List Segment} {cs : List Char}

/-! ## Letters and numbers -/

/-- The letters of escapes are looked up in their table. -/
theorem single?_eq_lookup (c : Char) : single? c = letters.lookup c := by
  unfold single?
  by_cases hmem : c ∈ letters.map Prod.fst
  · have htable : ∀ d ∈ letters.map Prod.fst, single? d = letters.lookup d :=
      List.forall_iff_forall_mem.mp (by decide)
    exact htable c hmem
  · have hnone : letters.lookup c = none := by
      rw [List.lookup_eq_none_iff]
      intro entry hentry
      rw [bne_iff_ne]
      rintro rfl
      exact hmem (List.mem_map_of_mem hentry)
    simp only [letters, List.map_cons, List.map_nil, List.mem_cons, List.not_mem_nil, or_false,
      not_or] at hmem
    rw [hnone]
    simp [hmem]

/-- A letter of the table has a character. -/
theorem exists_lookup_of_mem {c : Char} (h : c ∈ letters.map Prod.fst) :
    ∃ x, letters.lookup c = some x := by
  have htable : ∀ d ∈ letters.map Prod.fst, (letters.lookup d).isSome = true :=
    List.forall_iff_forall_mem.mp (by decide)
  exact Option.isSome_iff_exists.mp (htable c h)

/-- A letter that has a character is in the table. -/
theorem mem_letters_of_single? {c x : Char} (h : single? c = some x) :
    c ∈ letters.map Prod.fst := by
  rw [single?_eq_lookup] at h
  obtain ⟨front, back, hsplit, -⟩ := List.lookup_eq_some_iff.mp h
  rw [hsplit]
  simp

/-- No letter of the table marks a number. -/
theorem not_marks_of_mem {c : Char} (h : c ∈ letters.map Prod.fst) : c ≠ 'u' ∧ c ≠ 'U' := by
  have htable : ∀ d ∈ letters.map Prod.fst, d ≠ 'u' ∧ d ≠ 'U' :=
    List.forall_iff_forall_mem.mp (by decide)
  exact htable c h

/-- Digits have their places as values, and nothing else has a value. -/
theorem hexValue?_eq (c : Char) :
    hexValue? c = if isHexDigit c = true then some (digitValue c) else none := by
  by_cases hsmall : c.toNat < 0x80
  · have hascii : ∀ n < 0x80, hexValue? (Char.ofNat n) =
        if isHexDigit (Char.ofNat n) = true then some (digitValue (Char.ofNat n)) else none := by
      decide
    have hc := hascii c.toNat hsmall
    rwa [Char.ofNat_toNat] at hc
  · have hdigit : isHexDigit c = false := by
      simp only [isHexDigit, isAsciiDigit, Bool.or_eq_false_iff, Bool.and_eq_false_iff,
        decide_eq_false_iff_not]
      omega
    rw [hdigit, if_neg Bool.false_ne_true]
    unfold hexValue?
    simp only [Bool.and_eq_true, decide_eq_true_eq]
    rw [if_neg (by omega), if_neg (by omega), if_neg (by omega)]

/-- Reading digits from the left gives the number that they write. -/
theorem hexNumber?_eq {digits : List Char} (h : ∀ d ∈ digits, isHexDigit d = true) :
    hexNumber? digits = some (writtenNumber digits) := by
  have hfrom : ∀ start, digits.foldlM (fun n c => (hexValue? c).map (n * 16 + ·)) start =
      some (start * 16 ^ digits.length + writtenNumber digits) := by
    induction digits with
    | nil =>
      intro start
      simp [writtenNumber]
    | cons d digits ih =>
      intro start
      have hrest := ih fun e he => h e (List.mem_cons_of_mem d he)
      rw [List.foldlM_cons, hexValue?_eq, if_pos (h d List.mem_cons_self)]
      show digits.foldlM _ (start * 16 + digitValue d) = _
      rw [hrest, writtenNumber, writtenNumber, List.map_cons, Nat.ofDigits_reverse_cons,
        List.length_map, List.length_cons]
      congr 1
      ring
  have hzero := hfrom 0
  rwa [Nat.zero_mul, Nat.zero_add] at hzero

/-- The digits of a hexadecimal number are hexadecimal digits. -/
theorem isHexDigit_of_hexNumber? {digits : List Char} {n : Nat} (h : hexNumber? digits = some n) :
    ∀ d ∈ digits, isHexDigit d = true := by
  unfold hexNumber? at h
  generalize 0 = start at h
  induction digits generalizing start with
  | nil => exact fun d hd => absurd hd List.not_mem_nil
  | cons d digits ih =>
    rw [List.foldlM_cons, hexValue?_eq] at h
    split at h
    · rename_i hd
      intro e he
      rcases List.mem_cons.mp he with rfl | he
      · exact hd
      · exact ih _ h e he
    · cases h

/-! ## Decoding a segment -/

/-- A number is a character if it is assigned to one. -/
theorem isValidChar_iff (n : Nat) : n.isValidChar ↔ ¬IsUnassigned n := by
  unfold Nat.isValidChar IsUnassigned
  omega

namespace Segment

/-- The escape of a number, as it is written. -/
theorem isNumeric (h : s.IsProper) {n : Nat} (hn : s.number? = some n) :
    IsNumeric s.text n ∧ s.character = Char.ofNat n := by
  cases s with
  | plain c | letter c => cases hn
  | short digits =>
    cases hn
    exact ⟨.short h.1 (hexNumber?_eq h.2), rfl⟩
  | long digits =>
    cases hn
    exact ⟨.long h.1 (hexNumber?_eq h.2), rfl⟩

/-- Nothing is decoded from a number that no character has on. -/
theorem decode_of_namesNone (h : s.IsProper) (hnone : s.NamesNone) (rest : List Char) :
    decode .literal (s.text ++ rest) = none := by
  obtain ⟨n, hn, hunassigned⟩ := hnone
  rw [(isNumeric h hn).1.decode, if_neg fun hvalid => (isValidChar_iff n).mp hvalid hunassigned]
  rfl

/-- Any other segment decodes to its character. -/
theorem decode_of_not_namesNone (h : s.IsProper) (hnone : ¬s.NamesNone) (rest : List Char) :
    decode .literal (s.text ++ rest) = (decode .literal rest).map (s.character :: ·) := by
  cases hn : s.number? with
  | some n =>
    have hvalid : n.isValidChar :=
      (isValidChar_iff n).mpr fun hunassigned => hnone ⟨n, hn, hunassigned⟩
    obtain ⟨hnumeric, hcharacter⟩ := isNumeric h hn
    rw [hnumeric.decode, if_pos hvalid, Option.bind_some, hcharacter]
  | none =>
    cases s with
    | plain c => exact decode_plain .literal h rest
    | letter c =>
      obtain ⟨x, hx⟩ := exists_lookup_of_mem h
      rw [character, hx, Option.getD_some]
      exact decode_letter ((single?_eq_lookup c).trans hx) rest
    | short digits | long digits => cases hn

end Segment

/-! ## Decoding a text in segments -/

/-- A text in segments can be decoded unless a segment names no character. -/
theorem IsSplitInto.decode_eq_none_iff (h : IsSplitInto cs segments) :
    decode .literal cs = none ↔ ∃ s ∈ segments, s.NamesNone := by
  obtain ⟨hproper, rfl⟩ := h
  induction segments with
  | nil => simp [decode]
  | cons s segments ih =>
    have hs := hproper s List.mem_cons_self
    have hrest := ih fun t ht => hproper t (List.mem_cons_of_mem s ht)
    rw [List.flatMap_cons]
    simp only [List.mem_cons, exists_eq_or_imp]
    by_cases hnone : s.NamesNone
    · simp only [Segment.decode_of_namesNone hs hnone, hnone, true_or]
    · rw [Segment.decode_of_not_namesNone hs hnone, Option.map_eq_none_iff, hrest]
      simp only [hnone, false_or]

/-- Each segment is replaced by its character. -/
theorem IsSplitInto.decode_eq_some (h : IsSplitInto cs segments)
    (hnone : ∀ s ∈ segments, ¬s.NamesNone) :
    decode .literal cs = some (segments.map Segment.character) := by
  obtain ⟨hproper, rfl⟩ := h
  induction segments with
  | nil => rfl
  | cons s segments ih =>
    have hrest := ih (fun t ht => hnone t (List.mem_cons_of_mem s ht))
      fun t ht => hproper t (List.mem_cons_of_mem s ht)
    rw [List.flatMap_cons, Segment.decode_of_not_namesNone (hproper s List.mem_cons_self)
      (hnone s List.mem_cons_self), hrest]
    rfl

/-! ## One way to split -/

namespace Segment

/-- A segment is known by the text that starts with it. -/
theorem eq_of_append {rest rest' : List Char} (h : s.IsProper) (h' : other.IsProper)
    (heq : s.text ++ rest = other.text ++ rest') : s = other ∧ rest = rest' := by
  have hdigits : ∀ {digits digits' : List Char} {k : Nat}, digits.length = k →
      digits'.length = k → digits ++ rest = digits' ++ rest' → digits = digits' ∧ rest = rest' :=
    fun hlength hlength' hsame => List.append_inj hsame (hlength.trans hlength'.symm)
  cases s with
  | plain c =>
    obtain ⟨hhead, htail⟩ :
        c = (other.text ++ rest').headD c ∧ rest = (other.text ++ rest').tail := by
      rw [← heq]
      exact ⟨rfl, rfl⟩
    cases other with
    | plain d => exact ⟨congrArg plain hhead, htail⟩
    | letter _ | short _ | long _ => exact absurd hhead h
  | letter c =>
    obtain ⟨hu, hU⟩ := not_marks_of_mem h
    cases other with
    | plain d => exact absurd (List.cons.inj heq).1.symm h'
    | letter d =>
      obtain ⟨rfl, rfl⟩ := List.cons.inj (List.cons.inj heq).2
      exact ⟨rfl, rfl⟩
    | short _ => exact absurd (List.cons.inj (List.cons.inj heq).2).1 hu
    | long _ => exact absurd (List.cons.inj (List.cons.inj heq).2).1 hU
  | short digits =>
    cases other with
    | plain d => exact absurd (List.cons.inj heq).1.symm h'
    | letter d => exact absurd (List.cons.inj (List.cons.inj heq).2).1.symm (not_marks_of_mem h').1
    | short digits' =>
      obtain ⟨rfl, rfl⟩ := hdigits h.1 h'.1 (List.cons.inj (List.cons.inj heq).2).2
      exact ⟨rfl, rfl⟩
    | long _ => exact absurd (List.cons.inj (List.cons.inj heq).2).1 (by decide)
  | long digits =>
    cases other with
    | plain d => exact absurd (List.cons.inj heq).1.symm h'
    | letter d => exact absurd (List.cons.inj (List.cons.inj heq).2).1.symm (not_marks_of_mem h').2
    | short _ => exact absurd (List.cons.inj (List.cons.inj heq).2).1 (by decide)
    | long digits' =>
      obtain ⟨rfl, rfl⟩ := hdigits h.1 h'.1 (List.cons.inj (List.cons.inj heq).2).2
      exact ⟨rfl, rfl⟩

/-- No segment is empty. -/
theorem text_ne_nil (s : Segment) : s.text ≠ [] := by
  cases s <;> exact List.cons_ne_nil _ _

end Segment

/-- A text falls into segments in one way only. -/
theorem IsSplitInto.unique (h : IsSplitInto cs segments) (h' : IsSplitInto cs more) :
    more = segments := by
  induction segments generalizing cs more with
  | nil =>
    cases more with
    | nil => rfl
    | cons t more =>
      have hnil := h.text_eq.symm.trans h'.text_eq
      rw [List.flatMap_nil, List.flatMap_cons] at hnil
      exact absurd (List.append_eq_nil_iff.mp hnil.symm).1 t.text_ne_nil
  | cons s segments ih =>
    cases more with
    | nil =>
      have hnil := h.text_eq.symm.trans h'.text_eq
      rw [List.flatMap_nil, List.flatMap_cons] at hnil
      exact absurd (List.append_eq_nil_iff.mp hnil).1 s.text_ne_nil
    | cons t more =>
      have hsame := h.text_eq.symm.trans h'.text_eq
      rw [List.flatMap_cons, List.flatMap_cons] at hsame
      obtain ⟨rfl, hrest⟩ := Segment.eq_of_append (h.proper s List.mem_cons_self)
        (h'.proper t List.mem_cons_self) hsame
      rw [ih ⟨fun x hx => h.proper x (List.mem_cons_of_mem s hx), rfl⟩
        ⟨fun x hx => h'.proper x (List.mem_cons_of_mem s hx), hrest⟩]

/-! ## Pieces are segments -/

/-- A piece of an escaped text is the text of a proper segment. -/
theorem IsPiece.exists_segment {piece : List Char} (h : IsPiece .literal piece) :
    ∃ s : Segment, s.IsProper ∧ piece = s.text := by
  cases h with
  | @plain c hc => exact ⟨.plain c, hc, rfl⟩
  | @letter letter c _ hletter => exact ⟨.letter letter, mem_letters_of_single? hletter, rfl⟩
  | numeric hnumeric =>
    cases hnumeric with
    | @short digits n hlength hn =>
      exact ⟨.short digits, ⟨hlength, isHexDigit_of_hexNumber? hn⟩, rfl⟩
    | @long digits n hlength hn =>
      exact ⟨.long digits, ⟨hlength, isHexDigit_of_hexNumber? hn⟩, rfl⟩

/-- What is put together from characters and escapes falls into segments. -/
theorem IsEscaped.exists_split (h : IsEscaped .literal cs) :
    ∃ segments, IsSplitInto cs segments := by
  obtain ⟨pieces, rfl, hpieces⟩ := h
  induction pieces with
  | nil => exact ⟨[], fun _ hs => absurd hs List.not_mem_nil, rfl⟩
  | cons piece pieces ih =>
    obtain ⟨s, hs, rfl⟩ := (hpieces piece List.mem_cons_self).exists_segment
    obtain ⟨segments, hproper, htext⟩ := ih fun p hp => hpieces p (List.mem_cons_of_mem _ hp)
    refine ⟨s :: segments, fun t ht => ?_, ?_⟩
    · rcases List.mem_cons.mp ht with rfl | ht
      · exact hs
      · exact hproper t ht
    · rw [List.flatten_cons, List.flatMap_cons, htext]

end RdfStore.Text.Escape
