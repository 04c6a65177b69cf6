/-!
# UTF-8

`Utf8.decode` turns bytes into characters. Where the bytes are not well formed it
names the first fault: the index up to which they are, and the length of the longest
start of a sequence found there, or that the bytes end inside a sequence. `Utf8.bytesOf`
gives the bytes of a character.
-/

set_option autoImplicit false

namespace RdfStore.Text.Utf8

/-- The first place where bytes are not UTF-8. -/
structure Fault where
  /-- Every byte before this index belongs to a well-formed sequence. -/
  validUpTo : Nat
  /-- Length of the ill-formed part, or `none` when the bytes end too early. -/
  length? : Option Nat
deriving DecidableEq

/-- The wording of a fault. -/
def Fault.message (f : Fault) : String :=
  match f.length? with
  | some n => s!"invalid utf-8 sequence of {n} bytes from index {f.validUpTo}"
  | none => s!"incomplete utf-8 byte sequence from index {f.validUpTo}"

/-- The bytes of the character with a number. -/
def bytesOf (n : Nat) : List Nat :=
  if n < 0x80 then [n]
  else if n < 0x800 then [0xC0 + n / 64, 0x80 + n % 64]
  else if n < 0x10000 then [0xE0 + n / 4096, 0x80 + n / 64 % 64, 0x80 + n % 64]
  else [0xF0 + n / 262144, 0x80 + n / 4096 % 64, 0x80 + n / 64 % 64, 0x80 + n % 64]

/-- Bytes that can only follow another byte of a sequence. -/
def isContinuation (b : Nat) : Bool := 0x80 ≤ b && b ≤ 0xBF

/-- Second bytes allowed after the first byte of a sequence of three or four. -/
def isSecond (first b : Nat) : Bool :=
  if first == 0xE0 then 0xA0 ≤ b && b ≤ 0xBF
  else if first == 0xED then 0x80 ≤ b && b ≤ 0x9F
  else if first == 0xF0 then 0x90 ≤ b && b ≤ 0xBF
  else if first == 0xF4 then 0x80 ≤ b && b ≤ 0x8F
  else isContinuation b

/-- Reads the bytes that start at index `i`. -/
def decodeFrom (i : Nat) : List UInt8 → Except Fault (List Char)
  | [] => .ok []
  | b :: rest =>
    let first := b.toNat
    if first < 0x80 then (Char.ofNat first :: ·) <$> decodeFrom (i + 1) rest
    else if 0xC2 ≤ first && first ≤ 0xDF then
      match rest with
      | [] => .error ⟨i, none⟩
      | b₁ :: rest₁ =>
        if isContinuation b₁.toNat then
          (Char.ofNat ((first - 0xC0) * 64 + (b₁.toNat - 0x80)) :: ·) <$> decodeFrom (i + 2) rest₁
        else .error ⟨i, some 1⟩
    else if 0xE0 ≤ first && first ≤ 0xEF then
      match rest with
      | [] => .error ⟨i, none⟩
      | b₁ :: rest₁ =>
        if isSecond first b₁.toNat then
          match rest₁ with
          | [] => .error ⟨i, none⟩
          | b₂ :: rest₂ =>
            if isContinuation b₂.toNat then
              (Char.ofNat (((first - 0xE0) * 64 + (b₁.toNat - 0x80)) * 64 + (b₂.toNat - 0x80)) :: ·)
                <$> decodeFrom (i + 3) rest₂
            else .error ⟨i, some 2⟩
        else .error ⟨i, some 1⟩
    else if 0xF0 ≤ first && first ≤ 0xF4 then
      match rest with
      | [] => .error ⟨i, none⟩
      | b₁ :: rest₁ =>
        if isSecond first b₁.toNat then
          match rest₁ with
          | [] => .error ⟨i, none⟩
          | b₂ :: rest₂ =>
            if isContinuation b₂.toNat then
              match rest₂ with
              | [] => .error ⟨i, none⟩
              | b₃ :: rest₃ =>
                if isContinuation b₃.toNat then
                  (Char.ofNat ((((first - 0xF0) * 64 + (b₁.toNat - 0x80)) * 64
                      + (b₂.toNat - 0x80)) * 64 + (b₃.toNat - 0x80)) :: ·)
                    <$> decodeFrom (i + 4) rest₃
                else .error ⟨i, some 3⟩
            else .error ⟨i, some 2⟩
        else .error ⟨i, some 1⟩
    else .error ⟨i, some 1⟩

/-- The text that the bytes encode, or the first fault. -/
def decode (bytes : List UInt8) : Except Fault String :=
  String.ofList <$> decodeFrom 0 bytes

end RdfStore.Text.Utf8
