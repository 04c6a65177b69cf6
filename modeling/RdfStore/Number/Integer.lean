import RdfStore.Text.CharClass

/-!
# Integers of 64 bits

Integer values are mathematical integers in the signed range of 64 bits. An operation
that leaves the range has no result.
-/

set_option autoImplicit false

namespace RdfStore.Integer

open RdfStore.Text

/-- The numbers that 64 bits hold with a sign. -/
def InRange (n : Int) : Prop := -9223372036854775808 ≤ n ∧ n ≤ 9223372036854775807

instance (n : Int) : Decidable (InRange n) := inferInstanceAs (Decidable (_ ∧ _))

/-- The number itself, if it is in range. -/
def checked (n : Int) : Option Int := if InRange n then some n else none

/-- The number that a list of decimal digits writes. -/
def ofDigits (digits : List Char) : Nat :=
  digits.foldl (fun n c => n * 10 + (c.toNat - 0x30)) 0

/-- The number written by at least one decimal digit and nothing else. -/
def natural? (cs : List Char) : Option Nat :=
  if !cs.isEmpty && cs.all isAsciiDigit then some (ofDigits cs) else none

/-- Reads an integer in range: an optional sign and decimal digits. -/
def read? : List Char → Option Int
  | '+' :: digits => (natural? digits).bind fun n => checked n
  | '-' :: digits => (natural? digits).bind fun n => checked (-n)
  | digits => (natural? digits).bind fun n => checked n

end RdfStore.Integer
