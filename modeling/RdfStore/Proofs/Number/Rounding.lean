import Mathlib
import RdfStore.Number.Binary64
import RdfStore.Number.Numeral

/-!
# Rounding

A double is known by its bits, unless it is NaN. Rounding to the nearest double keeps the order of
integers: within a binade quotients are rounded by one divisor, and no binade rounds into the next
but one.
-/

set_option autoImplicit false

namespace RdfStore.Binary64

/-! ## Bits -/

section Bits

open Float.Model Float.Model.UnpackedFloat

/-- A bit pattern is made of its sign, its exponent and its mantissa. -/
theorem packComponents_unpack (b : BitVec Format.binary64.numBits) :
    packComponents .binary64 (Sign.ofBitVec (unpackSign b)) (unpackExponent b)
      (unpackMantissa b) = b := by
  have hsign : ∀ s : BitVec 1, (Sign.ofBitVec s).toBitVec = s := by decide
  simp only [packComponents, hsign, unpackSign, unpackExponent, unpackMantissa]
  ext i hi
  grind

/-- The parts of a small number: its mantissa has less than 53 digits, so none is implicit. -/
theorem pack_subnormal (s : Sign) (m : BitVec 52) (e : Int) (he : e = -1074) (hm : 0 < m.toNat) :
    UnpackedFloat.pack .binary64 (.finite s m.toNat e hm) = packComponents .binary64 s 0#11 m := by
  have hlog : m.toNat.log2 < 52 := (Nat.log2_lt (by omega)).mpr m.isLt
  have hdigits : ¬m.toNat.log2 + 1 = Format.binary64.mantissaBits := by
    show ¬m.toNat.log2 + 1 = 53
    omega
  subst he
  unfold UnpackedFloat.pack
  dsimp only
  rw [if_neg (by decide), if_neg hdigits]
  simp

/-- The parts of a number of 53 digits, whose first one is implicit. -/
theorem pack_normal (s : Sign) (e : BitVec 11) (m : BitVec 52) (he : e ≠ -1#11)
    (hm : 0 < (1#1 ++ m).toNat) :
    UnpackedFloat.pack .binary64 (.finite s (1#1 ++ m).toNat ((e.toNat : Int) - 1075) hm) =
      packComponents .binary64 s e m := by
  have himplicit : (1#1 ++ m).toNat = 2 ^ 52 + m.toNat := by
    rw [BitVec.toNat_append, ← Nat.shiftLeft_add_eq_or_of_lt m.isLt]
    rfl
  have hbiased : ((e.toNat : Int) - 1075 + Format.binary64.exponentBias +
      Format.binary64.mantissaBitsWithoutImplicit).toNat = e.toNat := by
    show ((e.toNat : Int) - 1075 + (1023 : Nat) + (52 : Nat)).toNat = e.toNat
    omega
  have hfits : ¬2 ^ Format.binary64.exponentBits ≤ e.toNat + 1 := by
    have hmax : e.toNat ≠ 2047 := fun h => he (BitVec.eq_of_toNat_eq h)
    have he := e.isLt
    show ¬2 ^ 11 ≤ e.toNat + 1
    omega
  have hdigits : (2 ^ 52 + m.toNat).log2 + 1 = Format.binary64.mantissaBits := by
    rw [(Nat.log2_eq_iff (by omega)).mpr (⟨by omega, by omega⟩ : 2 ^ 52 ≤ _ ∧ _ < 2 ^ 53)]
    rfl
  unfold UnpackedFloat.pack
  simp only [himplicit, hbiased]
  rw [if_neg hfits, if_pos hdigits]
  congr 1
  · exact BitVec.ofNat_toNat ..
  · refine BitVec.eq_of_toNat_eq ?_
    rw [BitVec.toNat_ofNat]
    omega

/-- A bit pattern that is not NaN is that of the number in it. -/
theorem pack_unpack {b : BitVec Format.binary64.numBits}
    (h : unpackExponent b = -1#_ → unpackMantissa b = 0#_) :
    UnpackedFloat.pack .binary64 (UnpackedFloat.unpack .binary64 b) = b := by
  refine Eq.trans ?_ (packComponents_unpack b)
  unfold UnpackedFloat.unpack
  dsimp only
  split
  · rename_i hmax
    rw [if_pos (h hmax), hmax, h hmax]
    rfl
  rename_i hmax
  split
  · rename_i hmin
    rw [hmin]
    split
    · rename_i hzero
      rw [hzero]
      rfl
    · exact pack_subnormal _ _ _ (by decide) _
  · have hbias : ((Format.binary64.exponentBias : Int) + (Format.binary64.mantissaBitsWithoutImplicit : Nat)) = 1075 := by rfl
    rw [hbias]
    exact pack_normal _ _ _ hmax _

/-- The double with given bits has these bits, unless it is NaN. -/
theorem toBits_ofBits {b : UInt64} (h : b.toNat % 0x8000000000000000 ≤ infiniteMagnitude) :
    (Float.ofBits b).toBits = b := by
  have hexponent : (@unpackExponent .binary64 b.toBitVec).toNat =
      b.toNat / 2 ^ 52 % 2 ^ 11 := by
    simp [unpackExponent, Nat.shiftRight_eq_div_pow]
  have hmantissa : (@unpackMantissa .binary64 b.toBitVec).toNat = b.toNat % 2 ^ 52 := by
    simp [unpackMantissa]
  refine UInt64.toBitVec_inj.mp (pack_unpack (b := b.toBitVec) fun hmax => ?_)
  rw [hmax] at hexponent
  have hall : 2047 = b.toNat / 2 ^ 52 % 2 ^ 11 := hexponent
  unfold infiniteMagnitude at h
  refine BitVec.eq_of_toNat_eq (hmantissa.trans ?_)
  show _ = 0
  omega

end Bits

variable {negative : Bool} {m : Nat}

/-- The bits of a double are its magnitude and its sign. -/
theorem toNat_toBits_ofMagnitude (h : m ≤ infiniteMagnitude) :
    (ofMagnitude negative m).toBits.toNat =
      if negative then 0x8000000000000000 + m else m := by
  unfold infiniteMagnitude at h
  have hfits : (UInt64.ofNat (if negative then 0x8000000000000000 + m else m)).toNat =
      if negative then 0x8000000000000000 + m else m := by
    rw [UInt64.toNat_ofNat', Nat.mod_eq_of_lt]
    split <;> omega
  unfold ofMagnitude
  rw [toBits_ofBits, hfits]
  rw [hfits]
  unfold infiniteMagnitude
  split <;> omega

/-- The key of the total order is the magnitude, or below zero the magnitude counted down. -/
theorem totalKey_ofMagnitude (h : m ≤ infiniteMagnitude) :
    totalKey (ofMagnitude negative m) = if negative then -(m : Int) - 1 else m := by
  have hbits := @toNat_toBits_ofMagnitude negative _ h
  unfold infiniteMagnitude at h
  unfold totalKey isNegative magnitude
  rw [hbits]
  cases negative <;> simp <;> omega

/-! ## Quotients -/

section Quotients

variable {num den : Nat}

/-- A rounded quotient is at least the whole one. -/
theorem div_le_roundDiv (num den : Nat) : num / den ≤ roundDiv num den := by
  unfold roundDiv
  dsimp only
  split
  · omega
  split
  · omega
  split <;> omega

/-- A rounded quotient is at most one more than the whole one. -/
theorem roundDiv_le_succ_div (num den : Nat) : roundDiv num den ≤ num / den + 1 := by
  unfold roundDiv
  dsimp only
  split
  · omega
  split
  · omega
  split <;> omega

/-- A quotient of at most a whole number is rounded to at most this number. -/
theorem roundDiv_le {bound : Nat} (hden : 0 < den) (h : num ≤ bound * den) :
    roundDiv num den ≤ bound := by
  have hdiv : num / den ≤ bound := Nat.div_le_of_le_mul (by rwa [Nat.mul_comm])
  rcases Nat.lt_or_eq_of_le hdiv with hlt | rfl
  · exact Nat.le_trans (roundDiv_le_succ_div num den) hlt
  · have hrest : num % den = 0 := by
      have := Nat.div_add_mod' num den
      omega
    have hexact : roundDiv num den = num / den := by
      unfold roundDiv
      dsimp only
      rw [hrest, if_pos (by omega)]
    exact Nat.le_of_eq hexact

/-- Rounding keeps the order of quotients by one divisor. -/
theorem roundDiv_mono {m n : Nat} (den : Nat) (h : m ≤ n) : roundDiv m den ≤ roundDiv n den := by
  rcases Nat.lt_or_eq_of_le (Nat.div_le_div_right (c := den) h) with hlt | heq
  · calc roundDiv m den ≤ m / den + 1 := roundDiv_le_succ_div m den
      _ ≤ n / den := hlt
      _ ≤ roundDiv n den := div_le_roundDiv n den
  · have hrest : m % den ≤ n % den := by
      have hm := Nat.div_add_mod' m den
      have hn := Nat.div_add_mod' n den
      rw [heq] at hm
      omega
    unfold roundDiv
    dsimp only
    rw [heq]
    grind

/-- Of two numbers the greater one is not rounded to less. -/
theorem roundAt_mono {m n : Nat} (den : Nat) (e : Int) (h : m ≤ n) :
    roundAt m den e ≤ roundAt n den e := by
  unfold roundAt
  split
  · exact roundDiv_mono _ h
  · exact roundDiv_mono _ (Nat.mul_le_mul_right _ h)

end Quotients

/-- Rounding ends at infinity. -/
theorem roundMagnitude_le (num den : Nat) : roundMagnitude num den ≤ infiniteMagnitude := by
  unfold roundMagnitude
  dsimp only
  split
  · exact Nat.zero_le _
  · exact Nat.min_le_right ..

/-! ## Integers -/

section Integers

variable {n : Nat}

/-- In the unit `2 ^ e` where `e` is by `k` less than its logarithm, a number is at least
`2 ^ k`. -/
theorem two_pow_le_scaled (hn : n ≠ 0) (k : Nat) {e : Int} (he : e = n.log2 - k) :
    2 ^ k ≤ if 0 ≤ e then n / (1 * Nat.pow 2 e.toNat) else n * Nat.pow 2 (-e).toNat / 1 := by
  have hlow := Nat.log2_self_le hn
  split
  · have hsplit : k + e.toNat = n.log2 := by omega
    rw [Nat.one_mul]
    refine (Nat.le_div_iff_mul_le (Nat.two_pow_pos _)).mpr ?_
    calc 2 ^ k * 2 ^ e.toNat = 2 ^ n.log2 := by rw [← Nat.pow_add, hsplit]
      _ ≤ n := hlow
  · have hsplit : n.log2 + (-e).toNat = k := by omega
    rw [Nat.div_one]
    calc 2 ^ k = 2 ^ n.log2 * 2 ^ (-e).toNat := by rw [← Nat.pow_add, hsplit]
      _ ≤ n * 2 ^ (-e).toNat := Nat.mul_le_mul_right _ hlow

/-- The unit in which a number has 53 binary digits. -/
theorem unitExponent_one (hn : n ≠ 0) : unitExponent n 1 = (n.log2 : Int) - 52 := by
  have hone : Nat.log2 1 = 0 := by rfl
  -- the first guess has 54 digits, so the next unit is taken
  have hwide := two_pow_le_scaled hn 53 (e := (n.log2 : Int) - (Nat.log2 1 : Nat) - 53) (by omega)
  have hdigits : 0x20000000000000 = 2 ^ 53 := by decide
  unfold unitExponent
  dsimp only
  rw [hdigits, if_neg (Nat.not_lt.mpr hwide)]
  omega

/-- A number in its unit has 53 binary digits, or is rounded to the least number of 54. -/
theorem roundAt_bounds (hn : n ≠ 0) :
    2 ^ 52 ≤ roundAt n 1 ((n.log2 : Int) - 52) ∧ roundAt n 1 ((n.log2 : Int) - 52) ≤ 2 ^ 53 := by
  have hlower := two_pow_le_scaled hn 52 (e := (n.log2 : Int) - 52) rfl
  have hhigh := @Nat.lt_log2_self n
  unfold roundAt
  split
  · rename_i he
    rw [if_pos he] at hlower
    refine ⟨Nat.le_trans hlower (div_le_roundDiv _ _), roundDiv_le ?_ ?_⟩
    · exact Nat.mul_pos Nat.one_pos (Nat.two_pow_pos _)
    · have hsplit : 53 + ((n.log2 : Int) - 52).toNat = n.log2 + 1 := by omega
      calc n ≤ 2 ^ (n.log2 + 1) := Nat.le_of_lt hhigh
        _ = 2 ^ 53 * 2 ^ ((n.log2 : Int) - 52).toNat := by rw [← hsplit, Nat.pow_add]
        _ = 2 ^ 53 * (1 * 2 ^ ((n.log2 : Int) - 52).toNat) := by rw [Nat.one_mul]
  · rename_i he
    rw [if_neg he] at hlower
    refine ⟨Nat.le_trans hlower (div_le_roundDiv _ _), roundDiv_le Nat.one_pos ?_⟩
    have hsplit : n.log2 + 1 + (-((n.log2 : Int) - 52)).toNat = 53 := by omega
    calc n * 2 ^ (-((n.log2 : Int) - 52)).toNat
        ≤ 2 ^ (n.log2 + 1) * 2 ^ (-((n.log2 : Int) - 52)).toNat :=
          Nat.mul_le_mul_right _ (Nat.le_of_lt hhigh)
      _ = 2 ^ 53 * 1 := by rw [← Nat.pow_add, hsplit, Nat.mul_one]

/-- A whole number is rounded to its first 53 binary digits. -/
theorem roundMagnitude_one (hn : n ≠ 0) :
    roundMagnitude n 1 =
      min ((n.log2 + 1022) * 0x10000000000000 + roundAt n 1 ((n.log2 : Int) - 52))
        infiniteMagnitude := by
  have hexponent : ((n.log2 : Int) - 52 + 1074).toNat = n.log2 + 1022 := by omega
  unfold roundMagnitude
  dsimp only
  rw [if_neg hn, unitExponent_one hn, hexponent]

/-- Rounding keeps the order of whole numbers. -/
theorem roundMagnitude_mono {m n : Nat} (h : m ≤ n) : roundMagnitude m 1 ≤ roundMagnitude n 1 := by
  by_cases hm : m = 0
  · subst hm
    exact Nat.zero_le _
  have hn : n ≠ 0 := by omega
  rw [roundMagnitude_one hm, roundMagnitude_one hn]
  refine Nat.le_min.mpr ⟨Nat.le_trans (Nat.min_le_left ..) ?_, Nat.min_le_right ..⟩
  have hlog : m.log2 ≤ n.log2 := (Nat.le_log2 hn).mpr (Nat.le_trans (Nat.log2_self_le hm) h)
  rcases Nat.lt_or_eq_of_le hlog with hlt | heq
  · have hupper := (roundAt_bounds hm).2
    have hlower := (roundAt_bounds hn).1
    omega
  · rw [heq]
    exact Nat.add_le_add_left (roundAt_mono 1 _ h) _

/-- Conversion to doubles keeps the order of integers. -/
theorem totalKey_ofInt_mono {m n : Int} (h : m ≤ n) : totalKey (ofInt m) ≤ totalKey (ofInt n) := by
  have hkey : ∀ k : Int, totalKey (ofInt k) =
      if k < 0 then -(roundMagnitude k.natAbs 1 : Int) - 1 else roundMagnitude k.natAbs 1 := by
    intro k
    unfold ofInt ofRatio
    rw [totalKey_ofMagnitude (roundMagnitude_le _ _)]
    simp
  rw [hkey, hkey]
  by_cases hn : n < 0
  · have := roundMagnitude_mono (m := n.natAbs) (n := m.natAbs) (by omega)
    rw [if_pos hn, if_pos (by omega)]
    omega
  rw [if_neg hn]
  split
  · omega
  · have := roundMagnitude_mono (m := m.natAbs) (n := n.natAbs) (by omega)
    omega

end Integers

end RdfStore.Binary64

/-!
## Comparing doubles

NaN compares with nothing. All other doubles are equal to themselves, their order can be reversed,
and it agrees with the order of all bit patterns where it is strict. Rounding never gives NaN, so
the only numeral of NaN is its name.
-/

namespace RdfStore

namespace Binary64

open Std

/-! ## Order -/

/-- Comparing the other way round gives the opposite. -/
theorem compare?_swap (x y : Float) : compare? x y = (compare? y x).map Ordering.swap := by
  unfold compare?
  rw [Bool.or_comm]
  split
  · rfl
  · exact congrArg some OrientedOrd.eq_swap

/-- Doubles cannot be compared if one of them is no number. -/
theorem compare?_eq_none_iff {x y : Float} :
    compare? x y = none ↔ isNaN x = true ∨ isNaN y = true := by
  unfold compare?
  split <;> simp_all

/-- A number is equal to itself. -/
theorem compare?_self {x : Float} (h : isNaN x = false) : compare? x x = some .eq := by
  unfold compare?
  rw [h, compare_self]
  rfl

/-- A number before another is so among all bit patterns too. -/
theorem totalOrder_of_lt {x y : Float} (h : compare? x y = some .lt) : totalOrder x y = .lt := by
  have hkey : numericKey x < numericKey y := by
    unfold compare? at h
    split at h
    · cases h
    · exact Int.compare_eq_lt.mp (Option.some.inj h)
  refine Int.compare_eq_lt.mpr ?_
  unfold numericKey at hkey
  unfold totalKey
  grind

/-! ## NaN -/

/-- A double with a magnitude up to infinity is a number. -/
theorem isNaN_ofMagnitude {negative : Bool} {m : Nat} (h : m ≤ infiniteMagnitude) :
    isNaN (ofMagnitude negative m) = false := by
  have hbits := @toNat_toBits_ofMagnitude negative _ h
  have hmagnitude : magnitude (ofMagnitude negative m) = m := by
    unfold infiniteMagnitude at h
    unfold magnitude
    rw [hbits]
    cases negative <;> simp <;> omega
  unfold isNaN
  rw [hmagnitude]
  exact decide_eq_false (Nat.not_lt.mpr h)

/-- A rounded quotient is a number. -/
theorem isNaN_ofRatio (negative : Bool) (num den : Nat) :
    isNaN (ofRatio negative num den) = false :=
  isNaN_ofMagnitude (roundMagnitude_le num den)

/-- A rounded integer is a number. -/
theorem isNaN_ofInt (n : Int) : isNaN (ofInt n) = false := isNaN_ofRatio _ _ _

/-- Infinity is a number. -/
theorem isNaN_infinity (negative : Bool) : isNaN (infinity negative) = false :=
  isNaN_ofMagnitude (Nat.le_refl _)

/-- A scaled number is a number. -/
theorem isNaN_ofScaled (negative : Bool) (m : Nat) (e : Int) :
    isNaN (ofScaled negative m e) = false := by
  have hzero : isNaN (ofMagnitude negative 0) = false := isNaN_ofMagnitude (Nat.zero_le _)
  unfold ofScaled
  dsimp only
  split
  · exact hzero
  split
  · exact isNaN_infinity negative
  split
  · exact hzero
  split
  · exact isNaN_ofRatio _ _ _
  · exact isNaN_ofRatio _ _ _

end Binary64

namespace Numeral

open Binary64

/-- The parts of a numeral have a number for their value. -/
theorem isNaN_value (p : Parts) : isNaN p.value = false := isNaN_ofScaled _ _ _

/-- No decimal is NaN. -/
theorem isNaN_of_decimal? {cs : List Char} {x : Float} (h : decimal? cs = some x) :
    isNaN x = false := by
  unfold decimal? at h
  split at h
  · have hfinite := (Option.filter_eq_some_iff.mp h).2
    unfold isFinite at hfinite
    unfold isNaN
    exact decide_eq_false (Nat.lt_asymm (of_decide_eq_true hfinite))
  · cases h

/-- The only double that is NaN is the one written so. -/
theorem isNaN_of_double? {cs : List Char} {x : Float} (h : double? cs = some x) :
    isNaN x = true ↔ cs = "NaN".toList := by
  have hother : isNaN x = false → cs ≠ "NaN".toList → (isNaN x = true ↔ cs = "NaN".toList) :=
    fun hx hcs => iff_of_false (ne_true_of_eq_false hx) hcs
  unfold double? at h
  split at h
  · rename_i hname
    obtain rfl := Option.some.inj h
    refine hother (isNaN_infinity false) ?_
    rintro rfl
    exact absurd hname (by decide)
  split at h
  · rename_i hname
    obtain rfl := Option.some.inj h
    refine hother (isNaN_infinity true) ?_
    rintro rfl
    exact absurd hname (by decide)
  split at h
  · rename_i hname
    obtain rfl := Option.some.inj h
    have hnan : isNaN nan = true := by decide
    simp only [hnan, hname]
  · rename_i hname
    obtain ⟨parts, -, rfl⟩ := Option.map_eq_some_iff.mp h
    exact hother (isNaN_value parts) hname

end Numeral

end RdfStore
