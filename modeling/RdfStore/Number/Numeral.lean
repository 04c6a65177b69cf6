import RdfStore.Number.Binary64
import RdfStore.Number.Integer

/-!
# Numbers as text

How decimal and double values are read and written. A decimal is written positionally
with the fewest digits that read back, and with `.0` when it is an integer below
`10 ^ 16`; a double is written with one digit before the point and an exponent after `E`.
-/

set_option autoImplicit false

/-!
## The fewest digits that read back

`Shortest.ofFloat` writes a finite double that is not zero with the fewest decimal
digits that round to it again; among these with the digits nearest to it, and of two
equally near ones the larger. For one digit after the other it looks at the two
neighbours of the number on the grid of that many digits, in exact arithmetic.
-/

namespace RdfStore.Shortest

/-- The digits `d₁d₂…dₙ` and the exponent `k` of `d₁.d₂…dₙ * 10 ^ k`. -/
structure Digits where
  digits : List Char
  exponent : Int

/-- A positive number as a fraction, with the ends of the interval that rounds to it:
the number is `value / den`, the ends are `low / den` and `high / den`. -/
structure Interval where
  low : Nat
  value : Nat
  high : Nat
  den : Nat
  /-- Whether the ends round to the number too. -/
  closed : Bool

/-- The interval of the double `m * 2 ^ e`, in units of `2 ^ (e - 2)`. -/
def Interval.ofDouble (m : Nat) (e : Int) : Interval :=
  let low := if m = 0x10000000000000 && e != -1074 then 4 * m - 1 else 4 * m - 2
  let scale := if 2 ≤ e then Nat.pow 2 (e - 2).toNat else 1
  let den := if 2 ≤ e then 1 else Nat.pow 2 (2 - e).toNat
  ⟨low * scale, 4 * m * scale, (4 * m + 2) * scale, den, m % 2 == 0⟩

/-- Whether the number `n / d` rounds to the double of the interval. -/
def Interval.contains (i : Interval) (n d : Nat) : Bool :=
  if i.closed then i.low * d ≤ n * i.den && n * i.den ≤ i.high * d
  else i.low * d < n * i.den && n * i.den < i.high * d

/-- The exponent `k` with `10 ^ k ≤ num / den < 10 ^ (k + 1)`. -/
def decimalExponent (num den : Nat) : Int :=
  if den ≤ num then (Binary64.digitCount (num / den) : Int) - 1
  else -(Binary64.digitCount ((den + num - 1) / num - 1) : Int)

/-- The neighbour on the grid of unit `gridNum / gridDen` that rounds to the double. -/
def gridPoint? (i : Interval) (gridNum gridDen : Nat) : Option Nat :=
  let below := i.value * gridDen / (i.den * gridNum)
  let above := below + 1
  let okBelow := i.contains (below * gridNum) gridDen
  let okAbove := i.contains (above * gridNum) gridDen
  if okBelow && okAbove then
    -- the number lies nearer to the lower neighbour when it is left of the middle
    if 2 * (i.value * gridDen) < (below + above) * (i.den * gridNum) then some below else some above
  else if okBelow then some below
  else if okAbove then some above
  else none

/-- Looks for a point on the grids of `n`, `n + 1`, … digits, at most `fuel` of them. -/
def search (i : Interval) (k : Int) : Nat → Nat → Option (Nat × Int)
  | 0, _ => none
  | fuel + 1, n =>
    let unit : Int := k - (n : Int) + 1
    let gridNum := if 0 ≤ unit then Nat.pow 10 unit.toNat else 1
    let gridDen := if 0 ≤ unit then 1 else Nat.pow 10 (-unit).toNat
    match gridPoint? i gridNum gridDen with
    | some c => some (c, unit)
    | none => search i k fuel (n + 1)

/-- The digits of a positive number in units of `10 ^ unit`, without zeros at the end. -/
def Digits.ofScaled (c : Nat) (unit : Int) : Digits :=
  let digits := Nat.toDigits 10 c
  let kept := (digits.reverse.dropWhile (· == '0')).reverse
  ⟨kept, unit + (digits.length : Int) - 1⟩

/-- The shortest digits of the double `m * 2 ^ e`. -/
def ofSignificand (m : Nat) (e : Int) : Digits :=
  let i := Interval.ofDouble m e
  match search i (decimalExponent i.value i.den) 17 1 with
  | some (c, unit) => Digits.ofScaled c unit
  | none => ⟨[], 0⟩

/-- The shortest digits of a finite double that is not zero. -/
def ofFloat (x : Float) : Digits :=
  let (m, e) := Binary64.significand x
  ofSignificand m e

end RdfStore.Shortest

namespace RdfStore.Numeral

open RdfStore.Text RdfStore.Shortest

/-! ## Reading -/

/-- A sign, digits with an optional point among them, and an optional exponent. -/
structure Parts where
  negative : Bool
  whole : List Char
  fraction : List Char
  exponent : Int

/-- The sign of a text and what follows it. -/
def splitSign : List Char → Bool × List Char
  | '+' :: rest => (false, rest)
  | '-' :: rest => (true, rest)
  | cs => (false, cs)

/-- Reads what may follow the digits: nothing, or `e`, a sign and digits. -/
def exponent? : List Char → Option Int
  | [] => some 0
  | c :: rest =>
    if c = 'e' || c = 'E' then
      let (negative, digits) := splitSign rest
      (Integer.natural? digits).map fun n => if negative then -(n : Int) else n
    else none

/-- Splits a numeral: at least one digit before or after the point. -/
def parts? (cs : List Char) : Option Parts :=
  let (negative, body) := splitSign cs
  let whole := body.takeWhile isAsciiDigit
  let (fraction, tail) :=
    match body.dropWhile isAsciiDigit with
    | '.' :: rest => (rest.takeWhile isAsciiDigit, rest.dropWhile isAsciiDigit)
    | rest => ([], rest)
  if whole.isEmpty && fraction.isEmpty then none
  else (exponent? tail).map fun e => ⟨negative, whole, fraction, e⟩

/-- The double nearest to a numeral. -/
def Parts.value (p : Parts) : Float :=
  Binary64.ofScaled p.negative (Integer.ofDigits (p.whole ++ p.fraction))
    (p.exponent - p.fraction.length)

/-- Characters of a decimal numeral. -/
def isDecimalChar (c : Char) : Bool := isAsciiDigit c || c == '.' || c == '+' || c == '-'

/-- Reads a decimal, which has no exponent and is finite. -/
def decimal? (cs : List Char) : Option Float :=
  if !cs.isEmpty && cs.all isDecimalChar then
    ((parts? cs).map Parts.value).filter Binary64.isFinite
  else none

/-- Reads a double: a numeral or the name of a special value. -/
def double? (cs : List Char) : Option Float :=
  if cs = "INF".toList || cs = "+INF".toList then some (Binary64.infinity false)
  else if cs = "-INF".toList then some (Binary64.infinity true)
  else if cs = "NaN".toList then some Binary64.nan
  else (parts? cs).map Parts.value

/-! ## Writing -/

/-- A minus sign for negative numbers. -/
def signText (x : Float) : List Char := if Binary64.isNegative x then ['-'] else []

/-- Digits written without an exponent. -/
def positional (d : Digits) : List Char :=
  if d.exponent < 0 then
    '0' :: '.' :: (List.replicate (-d.exponent - 1).toNat '0' ++ d.digits)
  else
    let wholeSize := d.exponent.toNat + 1
    let whole := d.digits.take wholeSize ++ List.replicate (wholeSize - d.digits.length) '0'
    let fraction := d.digits.drop wholeSize
    if fraction.isEmpty then whole else whole ++ '.' :: fraction

/-- Digits written with a point after the first one and an exponent. -/
def scientific (d : Digits) : List Char :=
  let body :=
    match d.digits with
    | first :: second :: rest => first :: '.' :: second :: rest
    | digits => digits
  body ++ 'E' :: (toString d.exponent).toList

/-- The text of a decimal. -/
def writeDecimal (x : Float) : String :=
  if Binary64.isNaN x then "NaN"
  else if Binary64.isInfinite x then String.ofList (signText x ++ "inf".toList)
  else if Binary64.isIntegral x && decide ((Binary64.truncate x).natAbs < 10000000000000000) then
    String.ofList (signText x ++ (toString (Binary64.truncate x).natAbs).toList ++ ['.', '0'])
  else String.ofList (signText x ++ positional (ofFloat x))

/-- The text of a double. -/
def writeDouble (x : Float) : String :=
  if Binary64.isNaN x then "NaN"
  else if Binary64.isInfinite x then
    if Binary64.isNegative x then "-INF" else "INF"
  else if Binary64.isZero x then String.ofList (signText x ++ "0E0".toList)
  else String.ofList (signText x ++ scientific (ofFloat x))

end RdfStore.Numeral
