/-!
# Escaped text

Quoted literals write some characters as escapes: `\n` and its like, and `\uXXXX` or
`\UXXXXXXXX` for the character with that number. `encode` writes a lexical form so
that it can stand between double quotes, and `decode` reads escapes back; it fails on
an unknown escape and on a number that is no Unicode scalar value.
-/

set_option autoImplicit false

namespace RdfStore.Text.Escape

/-- The value of a hexadecimal digit of either case. -/
def hexValue? (c : Char) : Option Nat :=
  let n := c.toNat
  if 0x30 ≤ n && n ≤ 0x39 then some (n - 0x30)
  else if 0x41 ≤ n && n ≤ 0x46 then some (n - 0x37)
  else if 0x61 ≤ n && n ≤ 0x66 then some (n - 0x57)
  else none

/-- The number written by hexadecimal digits, the most significant first. -/
def hexNumber? (digits : List Char) : Option Nat :=
  digits.foldlM (fun n c => (hexValue? c).map (n * 16 + ·)) 0

/-- The character whose number the digits write; surrogates have none. -/
def hexChar? (digits : List Char) : Option Char :=
  (hexNumber? digits).bind fun n => if n.isValidChar then some (Char.ofNat n) else none

/-- The character that a one-letter escape stands for. -/
def single? (c : Char) : Option Char :=
  if c = 't' then some '\t'
  else if c = 'b' then some '\x08'
  else if c = 'n' then some '\n'
  else if c = 'r' then some '\r'
  else if c = 'f' then some '\x0C'
  else if c = '"' || c = '\x27' || c = '\\' then some c
  else none

/-- Which escapes a text may hold. -/
inductive Alphabet where
  /-- Numeric escapes and the one-letter escapes. -/
  | literal
  /-- Numeric escapes only. -/
  | iri
deriving DecidableEq

/-- Replaces every escape by its character. -/
def decode (alphabet : Alphabet) : List Char → Option (List Char)
  | [] => some []
  | '\\' :: 'u' :: a :: b :: c :: d :: rest =>
    (hexChar? [a, b, c, d]).bind fun x => (decode alphabet rest).map (x :: ·)
  | '\\' :: 'U' :: a :: b :: c :: d :: e :: f :: g :: h :: rest =>
    (hexChar? [a, b, c, d, e, f, g, h]).bind fun x => (decode alphabet rest).map (x :: ·)
  | '\\' :: c :: rest =>
    match alphabet with
    | .literal => (single? c).bind fun x => (decode alphabet rest).map (x :: ·)
    | .iri => none
  | c :: rest => if c = '\\' then none else (decode alphabet rest).map (c :: ·)

/-- The control characters of Unicode (category Cc). -/
def isControl (c : Char) : Bool :=
  c.toNat < 0x20 || (0x7F ≤ c.toNat && c.toNat ≤ 0x9F)

/-- One hexadecimal digit in upper case. -/
def hexDigit (n : Nat) : Char :=
  if n < 10 then Char.ofNat (0x30 + n) else Char.ofNat (0x37 + n)

/-- The last four hexadecimal digits of a number. -/
def hex4 (n : Nat) : List Char :=
  [hexDigit (n / 4096 % 16), hexDigit (n / 256 % 16), hexDigit (n / 16 % 16), hexDigit (n % 16)]

/-- A character as it is written between double quotes. -/
def encodeChar (c : Char) : List Char :=
  if c = '"' then ['\\', '"']
  else if c = '\\' then ['\\', '\\']
  else if c = '\n' then ['\\', 'n']
  else if c = '\r' then ['\\', 'r']
  else if c = '\t' then ['\\', 't']
  else if isControl c then '\\' :: 'u' :: hex4 c.toNat
  else [c]

/-- A text as it is written between double quotes. -/
def encode (cs : List Char) : List Char := cs.flatMap encodeChar

end RdfStore.Text.Escape
