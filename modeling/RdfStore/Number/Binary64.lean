/-!
# Doubles

Numbers of the IEEE format binary64, handled through their bits. `ofScaled` rounds the
number `m * 10 ^ e` to the nearest double, a tie to the even one, in exact arithmetic.
`compare?` is the order of the represented numbers, under which NaN has no place and
the two zeros are equal; `totalOrder` places every bit pattern.
-/

set_option autoImplicit false

namespace RdfStore.Binary64

/-- The sign bit. -/
def isNegative (x : Float) : Bool := x.toBits.toNat ≥ 0x8000000000000000

/-- The bits without the sign. -/
def magnitude (x : Float) : Nat := x.toBits.toNat % 0x8000000000000000

/-- The magnitude of infinity; larger ones are NaN. -/
def infiniteMagnitude : Nat := 0x7FF0000000000000

def isNaN (x : Float) : Bool := infiniteMagnitude < magnitude x

def isInfinite (x : Float) : Bool := magnitude x == infiniteMagnitude

def isFinite (x : Float) : Bool := magnitude x < infiniteMagnitude

def isZero (x : Float) : Bool := magnitude x == 0

/-- The double with the given sign and magnitude. -/
def ofMagnitude (negative : Bool) (magnitude : Nat) : Float :=
  Float.ofBits (UInt64.ofNat (if negative then 0x8000000000000000 + magnitude else magnitude))

def infinity (negative : Bool) : Float := ofMagnitude negative infiniteMagnitude

def nan : Float := ofMagnitude false 0x7FF8000000000000

/-- The significand and the exponent: the magnitude of a finite double stands for
`m * 2 ^ e`. -/
def significand (x : Float) : Nat × Int :=
  let exponent := magnitude x / 0x10000000000000
  let fraction := magnitude x % 0x10000000000000
  if exponent = 0 then (fraction, -1074) else (fraction + 0x10000000000000, (exponent : Int) - 1075)

/-! ## Order -/

/-- A key whose order is that of the represented numbers. -/
def numericKey (x : Float) : Int :=
  if isNegative x then -(magnitude x : Int) else magnitude x

/-- The order of the represented numbers; NaN compares with nothing. -/
def compare? (x y : Float) : Option Ordering :=
  if isNaN x || isNaN y then none else some (compare (numericKey x) (numericKey y))

/-- A key that tells all bit patterns apart, the negative zero before the positive one. -/
def totalKey (x : Float) : Int :=
  if isNegative x then -(magnitude x : Int) - 1 else magnitude x

/-- The order of all bit patterns; a positive NaN comes last. -/
def totalOrder (x y : Float) : Ordering := compare (totalKey x) (totalKey y)

/-! ## Rounding -/

/-- The quotient rounded to the nearest number, a tie to the even one. -/
def roundDiv (num den : Nat) : Nat :=
  let q := num / den
  let r := num % den
  if 2 * r < den then q
  else if den < 2 * r then q + 1
  else if q % 2 = 0 then q else q + 1

/-- `num / den` in units of `2 ^ e`, rounded. -/
def roundAt (num den : Nat) (e : Int) : Nat :=
  if 0 ≤ e then roundDiv num (den * Nat.pow 2 e.toNat)
  else roundDiv (num * Nat.pow 2 (-e).toNat) den

/-- The exponent of the unit in which `num / den` has 53 binary digits, or the smallest one. -/
def unitExponent (num den : Nat) : Int :=
  let e : Int := (num.log2 : Int) - (den.log2 : Int) - 53
  let wide := if 0 ≤ e then num / (den * Nat.pow 2 e.toNat) else num * Nat.pow 2 (-e).toNat / den
  let e := if wide < 0x20000000000000 then e else e + 1
  max e (-1074)

/-- The magnitude of the double nearest to `num / den`. -/
def roundMagnitude (num den : Nat) : Nat :=
  if num = 0 then 0
  else
    let e := unitExponent num den
    min ((e + 1074).toNat * 0x10000000000000 + roundAt num den e) infiniteMagnitude

/-- The double nearest to `± num / den`. -/
def ofRatio (negative : Bool) (num den : Nat) : Float :=
  ofMagnitude negative (roundMagnitude num den)

/-- How many decimal digits a number has. -/
def digitCount (n : Nat) : Nat := (Nat.toDigits 10 n).length

/-- The double nearest to `± m * 10 ^ e`. -/
def ofScaled (negative : Bool) (m : Nat) (e : Int) : Float :=
  if m = 0 then ofMagnitude negative 0
  else
    let top := (digitCount m : Int) + e
    if 310 < top then infinity negative
    else if top < -330 then ofMagnitude negative 0
    else if 0 ≤ e then ofRatio negative (m * Nat.pow 10 e.toNat) 1
    else ofRatio negative m (Nat.pow 10 (-e).toNat)

/-- The double nearest to an integer. -/
def ofInt (n : Int) : Float := ofRatio (decide (n < 0)) n.natAbs 1

/-- The integer part of a finite double. -/
def truncate (x : Float) : Int :=
  let (m, e) := significand x
  let whole := if 0 ≤ e then m * Nat.pow 2 e.toNat else m / Nat.pow 2 (-e).toNat
  if isNegative x then -(whole : Int) else whole

/-- Whether a finite double is an integer. -/
def isIntegral (x : Float) : Bool :=
  let (m, e) := significand x
  if 0 ≤ e then true else m % Nat.pow 2 (-e).toNat == 0

/-- The number without its sign. -/
def abs (x : Float) : Float := ofMagnitude false (magnitude x)

/-- The number with the other sign. -/
def negate (x : Float) : Float := ofMagnitude (!isNegative x) (magnitude x)

end RdfStore.Binary64
