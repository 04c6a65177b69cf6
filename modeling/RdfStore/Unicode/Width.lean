import RdfStore.Unicode.Property

/-!
# Widths of texts

How many columns of a terminal a text takes: two for the wide characters of East Asia and
for most pictures, none for marks on other characters and for invisible ones, and one for
every other character. Some characters are drawn as one with those after them: pictures
that are joined or modified, letters of some scripts. A text is measured from its end, so
that what follows a character is known. These are the widths of the library `unicode-width`.
-/

set_option autoImplicit false

namespace RdfStore.Unicode

/-! ## Characters -/

/-- Characters that take no column. -/
def zeroWidth : Ranges :=
  decodeRanges 0 <| items
    ["4t gi-33 7n-6 7b-18 1 1-1 1-1 1 1p a-a 1 1a-k g 2t-6 2-5 2-1 1-3 x 1 u-q 2j-a 1m-8 9 o-3",
     "1-8 1-2 1-4 17-2 1g-1 5-8 16-1k 1j 1 4-7 4 3-6 a-1 t 1m 1 2-3 8 9 a-1 q 2-1 1l 4-1 4-1 2-2",
     "3 u-1 3 b-1 1l 4-4 1-1 4 k-1 m-5 1 1m 1-1 1-3 8 7-2 a-1 u 1n 1 c 9 14 3 1j 1-2 5-2 1-3 7-1",
     "b-1 t 1m 2-1 1 3-2 1-3 7-1 b-1 s-1 1l-1 1 2-3 8-1 8 a-1 t 20 4 2-2 1 8 29 2-6 c-7 2q 2-8",
     "b-6 21-1 r 1 1 1j-d 1-4 1-1 5-a 1-z 9 2u-3 1-5 1-1 2-1 p-1 4-2 g-3 d 2-1 6 f 5e-4f 9p-2",
     "qa-3 s-2 t-1 u-1 1s-1 1-6 8 2-a 9 19-4 39-1 y 3a-2 4-1 9 6-2 63-1 2 1m 1-6 1 1 2-7 6-9 2",
     "1c-19 2-b k-3 1c-9 4-2 12-8 c-1 w-3 2-5 1k 1-1 3 1-4 1k-7 2-1 48-2 1-c 1-6 4 6 3-1 5i-1r",
     "ej-4 q-4 1d-f 2o-w 2da-2 6m-v fe-5 2x-1 5l n4a-3 1-9 w-1 28-1 7k 3 4 p-1 5 47-1 q-h 8 4",
     "12-7 p-a 1 18-2 1c 2-3 2-1 2 10 1v-5 2-1 2-1 c 8 1b 1f 1-2 2-1 5-1 1 16-1 8 6m 2 4 8n6-m",
     "4-1c 6xu kh-f g-f 5r 4g 27-8 ec 6a 45-4 1ae-2 1-1 5-3 14-2 4 4l-1 fx-3 1t-4 8t-1 25-5 1y-a",
     "1d-3 3f 1i-e 15 2-1 a-2 1d-3 2-1 7 1p-2 10-4 1-7 1q c-1 1g-8 1 1-1 5-3 2 2n-2 2-3 6 2 4d",
     "3-7 l-1 1l-1 1 1 c 9 e-6 3-4 1v 2-5 1 2 1-2 4-4 e-1 2d-7 2-2 1 n 29 2-5 1 2 1-1 1-1 6j 2-3",
     "6-1 1-1 r-1 2d-7 2 1-1 2y 1 2-7 2t 1 2-3 1-4 77-8 1-1 6t a-4 1 1 40-3 2-1 4 w-9 14-5 1-4 8",
     "9-5 2-2 14-i 1-1 5i 1-2 1 5l-6 1-5 1 2a-l 2-6 1-1 1-1 3e-5 3 1-1 1-8 20-1 3 1 9n-1 b-2",
     "1f-4 5-2 n 44l 6-e 8ug-b 3-2 1xc-4 1n-6 t4 1r-3 29 b-1 f57-1 1-3 3mk-19 2-m f2-4 3-l 2-6",
     "u-3 44-2 1iz-1i 4-1d 8 e m-4 1-e 11s-6 1-g 2-6 1-1 1-4 2s 4g-6 af 1p-3 e4-3 72-1 6r 2 7-1",
     "5 d6-6 31-6 gzat-35r"]

/-- Characters that take two columns. -/
def doubleWidth : Ranges :=
  decodeRanges 0 <| items
    ["3cw-2n 18k 29h-1 d-1 5a-3 3 2 eh-1 l-1 q-7 g-b 17 a-5 3 d 8-1 h-1 5-1 8 5 l 7-1 1 4 2 7",
     "4-1 s z 1 4-2 1 1p-2 o e nv-1 1f 4 mi-p 1-2g c-5x q-1l 6-e 2-2d 4-2s 5-16 1-1e 1-15 1-2d",
     "9-1b 1-13 8-mkc 3-1i wp-s hv-8mb 6l8-e7 ls-9 m-y 1-i 1-3 45-2n 3j-6 m49-3 e-4 9-5p1 15-v",
     "2p-36 6pp-3 1-6 1-1 1-82 f t-2 2 e-3 8-az 6bo-2e 9-m 5n1 5m 5a 2-9 2t-2 d-17 4-8 7-1 e-5",
     "4a-w c-8 1-1x 1-l c-16 4-4 c-g 3 3-1y 1 1-56 2-1q d-3 1-n i q-1 d 2e-2c 1c-1x 6 3-2 2-3",
     "3-3 b-1 7-8 6b-b 4 7v-1a 1-9 1-54 34-c 3-a 3-1k 1 4-f 2-b 4-9 zr-1ekd 2-1ekd"]

/-- Characters without width that no letters are joined across. -/
def opaqueMarks : Ranges :=
  decodeRanges 0 <| items
    ["16t i2-1 28 63 o 9y o 2u o 6g 1 4-1 1-1 9-1 2v f 8 3b f ow-4f 105 u 61 me 5 1 5-1 2t 1z-1",
     "t4-1 2f-4 344-1 8k nmd 2g 30 92n-m 4-1c 7tw 27-8 3if 1-1 35 7c e 9 2o 9 2 1-2 5 1 66 c 6p",
     "7a hl c 1 1 6w 21-5 jg cb 1q fxq-1 j8z-1 6-5 h40d 1-t 2o-3j 6o-2rz"]

/-- Marks and joiners that may stand between letters which are drawn as one. -/
def transparentMarks : Ranges :=
  [(0x34F, 0x34F), (0x17B4, 0x17B5), (0x180B, 0x180D), (0x180F, 0x180F), (0x200D, 0x200D),
   (0xFE00, 0xFE0F), (0xE0100, 0xE01EF)]

/-- How many columns a character takes by itself. -/
def columns (n : Nat) : Nat :=
  if zeroWidth.contains n then 0
  else if doubleWidth.contains n then 2
  else if n = 0x17D8 then 3
  else 1

/-- Pictures that are drawn as such by themselves. -/
def pictures : Ranges :=
  ((propertyTable.get "epres").difference (propertyTable.get "ri")).difference
    (propertyTable.get "emod")

/-- Pictures beyond the first plane that are drawn as such by themselves and that have a form
as text too. -/
def stylablePictures : Ranges :=
  [(0x1F004, 0x1F004), (0x1F21A, 0x1F21A), (0x1F22F, 0x1F22F), (0x1F30D, 0x1F30F),
   (0x1F315, 0x1F315), (0x1F31C, 0x1F31C), (0x1F378, 0x1F378), (0x1F393, 0x1F393),
   (0x1F3A7, 0x1F3A7), (0x1F3AC, 0x1F3AE), (0x1F3C2, 0x1F3C2), (0x1F3C4, 0x1F3C4),
   (0x1F3C6, 0x1F3C6), (0x1F3CA, 0x1F3CA), (0x1F3E0, 0x1F3E0), (0x1F3ED, 0x1F3ED),
   (0x1F408, 0x1F408), (0x1F415, 0x1F415), (0x1F41F, 0x1F41F), (0x1F426, 0x1F426),
   (0x1F442, 0x1F442), (0x1F446, 0x1F449), (0x1F44D, 0x1F44E), (0x1F453, 0x1F453),
   (0x1F46A, 0x1F46A), (0x1F47D, 0x1F47D), (0x1F4A3, 0x1F4A3), (0x1F4B0, 0x1F4B0),
   (0x1F4B3, 0x1F4B3), (0x1F4BB, 0x1F4BB), (0x1F4BF, 0x1F4BF), (0x1F4CB, 0x1F4CB),
   (0x1F4DA, 0x1F4DA), (0x1F4DF, 0x1F4DF), (0x1F4E4, 0x1F4E6), (0x1F4EA, 0x1F4ED),
   (0x1F4F7, 0x1F4F7), (0x1F4F9, 0x1F4FB), (0x1F508, 0x1F508), (0x1F50D, 0x1F50D),
   (0x1F512, 0x1F513), (0x1F550, 0x1F567), (0x1F610, 0x1F610), (0x1F687, 0x1F687),
   (0x1F68D, 0x1F68D), (0x1F691, 0x1F691), (0x1F694, 0x1F694), (0x1F698, 0x1F698),
   (0x1F6AD, 0x1F6AD), (0x1F6B2, 0x1F6B2), (0x1F6B9, 0x1F6BA), (0x1F6BC, 0x1F6BC)]

/-- Pictures that have a form as text. -/
def textPictures : Ranges :=
  (pictures.intersection [(0, 0xFFFF)]).union stylablePictures

/-- Characters that have both a form as text and a form as a picture. -/
def styled : Ranges :=
  (((propertyTable.get "emoji").difference (propertyTable.get "epres")).difference
    (propertyTable.get "ri")).union textPictures

/-- Pictures whose form as text is narrow. -/
def narrowedPictures : Ranges := textPictures.difference [(0x1F200, 0x1F2FF)]

/-! ## What follows a character -/

/-- What a text starts with, as far as it matters to the character before it. -/
inductive Follower where
  | other
  | lineFeed
  /-- A sign that changes the colour of a picture. -/
  | modifier
  | indicator
  /-- Two letters for regions or more. -/
  | indicators
  /-- A picture, with all that is drawn as one with it. -/
  | picture
  /-- A joiner and a picture. -/
  | joined
  /-- A key around the character before, a joiner and a picture. -/
  | joinedKey
  /-- An odd number of letters for regions, a joiner and a picture; whether there are more
  than one. -/
  | oddIndicators (areMore : Bool)
  /-- An even number of letters for regions, a joiner and a picture. -/
  | evenIndicators
  /-- So many tagged letters, and so many tagged digits before them, the end of the tag, a
  joiner and a picture. -/
  | tag (letters digits : Nat)
  /-- The signs that choose a form of a quotation mark; whether they make it wide. -/
  | quoteForm (isWide : Bool)
  | alef
  | lamed (isJoined : Bool)
  | ya (isJoined : Bool)
  /-- The second letter of a joined group of three. -/
  | vowelYa
  | tifinagh (isJoined : Bool)
  | tifinaghJoiner
  | toneLetter
  | orkhonI (isJoined : Bool)
  | khmerLetter
  | kiratE
  | kiratAi
deriving DecidableEq

/-- The signs that choose the form of the character before. -/
inductive Style where
  | none | text | picture
deriving DecidableEq

/-- What follows a character. -/
structure Following where
  follower : Follower
  style : Style
deriving DecidableEq

namespace Follower

/-- Letters that can be drawn as one with the letters before them. -/
def isLetter : Follower → Bool
  | .alef | .lamed _ | .ya _ | .vowelYa | .tifinagh _ | .tifinaghJoiner | .toneLetter
  | .orkhonI _ | .khmerLetter => true
  | _ => false

/-- A joined picture. -/
def isJoined : Follower → Bool
  | .joined | .joinedKey => true
  | _ => false

/-- The follower after a joiner between letters. -/
def join : Follower → Follower
  | .lamed _ => .lamed true
  | .ya _ => .ya true
  | .tifinagh _ => .tifinagh true
  | .orkhonI _ => .orkhonI true
  | f => f

end Follower

/-- Nothing that matters. -/
def Following.nothing : Following := ⟨.other, .none⟩

/-- What is known of a text when one of the signs that choose a form is before it. -/
def Following.choose (f : Following) (style : Style) : Following :=
  if f.follower.isLetter || (style = .picture && f.follower.isJoined) then { f with style := style }
  else ⟨.other, style⟩

/-- What is known of a text when the form that is chosen does not matter. -/
def Following.unstyled (f : Following) : Following :=
  if f.style = .none then f
  else if f.follower.isLetter then ⟨f.follower, .none⟩
  else Following.nothing

/-- Whether a number lies in a range. -/
def between (first last n : Nat) : Bool := first ≤ n && n ≤ last

/-- Letters that a following alef is drawn as one with. -/
def isLam (n : Nat) : Bool :=
  n == 0x644 || between 0x6B5 0x6B8 n || n == 0x76A || n == 0x8A6 || n == 0x8C7

def isAlef (n : Nat) : Bool :=
  between 0x622 0x623 n || n == 0x625 || n == 0x627 || between 0x671 0x673 n || n == 0x675
    || between 0x773 0x774 n || between 0x870 0x882 n

/-- Letters that take no room after the sign that puts them below. -/
def isKhmerLetter (n : Nat) : Bool :=
  between 0x1780 0x1782 n || between 0x1784 0x1787 n || between 0x1789 0x178C n
    || between 0x178E 0x1793 n || between 0x1795 0x1798 n || between 0x179B 0x179D n
    || n == 0x17A0 || n == 0x17A2 || n == 0x17A7 || between 0x17AB 0x17AC n || n == 0x17AF

def isTifinagh (n : Nat) : Bool := between 0x2D31 0x2D65 n || n == 0x2D6F

def isIndicator (n : Nat) : Bool := between 0x1F1E6 0x1F1FF n

def isModifier (n : Nat) : Bool := between 0x1F3FB 0x1F3FF n

/-- Quotation marks that have a wide form. -/
def isQuote (n : Nat) : Bool := between 0x2018 0x2019 n || between 0x201C 0x201D n

/-- A character with nothing before it that is drawn as one with it, as a follower. -/
def followerOf (n : Nat) : Follower :=
  if n = 0x0A then .lineFeed
  else if isModifier n then .modifier
  else if isIndicator n then .indicator
  else if pictures.contains n then .picture
  else if n = 0xFE00 || n = 0xFE02 then .quoteForm false
  else if n = 0xFE01 then .quoteForm true
  else if isAlef n then .alef
  else if n = 0x5DC then .lamed false
  else if n = 0x1A10 then .ya false
  else if isTifinagh n then .tifinagh false
  else if between 0xA4FC 0xA4FD n then .toneLetter
  else if n = 0x10C03 then .orkhonI false
  else if isKhmerLetter n then .khmerLetter
  else if n = 0x16D67 then .kiratE
  else if n = 0x16D68 then .kiratAi
  else .other

/-! ## Measuring -/

/-- What a character adds to the columns of a text, and what is then known of the text. -/
abbrev Measure := Int × Following

/-- The measure of a character by itself. -/
def alone (n : Nat) : Measure :=
  if n = 0xFE0E then (0, ⟨.other, .text⟩)
  else if n = 0xFE0F then (0, ⟨.other, .picture⟩)
  else (columns n, ⟨followerOf n, .none⟩)

/-- The measure of a letter that is drawn as one with the letters after it. -/
def letterMeasure? (n : Nat) (follower : Follower) : Option Measure :=
  let add := fun (width : Int) (follower : Follower) => some (width, Following.mk follower .none)
  match follower with
  | .alef =>
    if isLam n then add 0 .other
    else if zeroWidth.contains n && !opaqueMarks.contains n then add 0 .alef
    else none
  | .lamed true => if n = 0x5D0 then add 0 .other else none
  | .ya true => if n = 0x1A17 then add 0 .vowelYa else none
  | .vowelYa => if n = 0x1A15 then add 0 .other else none
  | .khmerLetter => if n = 0x17D2 then add (-1) .other else none
  | .tifinagh isJoined =>
    if n = 0x2D7F then add 1 .tifinaghJoiner
    else if isJoined && isTifinagh n then add 0 .other
    else none
  | .tifinaghJoiner => if isTifinagh n then add (-1) .other else none
  | .toneLetter => if between 0xA4F8 0xA4FB n then add 0 .other else none
  | .orkhonI true => if n = 0x10C32 then add 0 .other else none
  | .kiratE =>
    if n = 0x16D63 || n = 0x16D69 then add 0 .other
    else if n = 0x16D67 then add 0 .kiratAi
    else if n = 0x16D68 then add 1 .kiratE
    else none
  | .kiratAi => if n = 0x16D63 then add 0 .other else none
  | _ => none

/-- The measure of a part of a flag that is spelled in tags and joined to a picture. -/
def tagMeasure? (n letters digits : Nat) : Option Measure :=
  let add := fun (follower : Follower) => some ((0 : Int), Following.mk follower .none)
  if between 0xE0061 0xE007A n then
    if digits = 0 && letters < 6 then add (.tag (letters + 1) 0) else none
  else if between 0xE0030 0xE0039 n then
    if digits = 0 && letters ≤ 4 then add (.tag letters 1)
    else if digits = 1 || digits = 2 then add (.tag letters (digits + 1))
    else none
  else if n = 0x1F3F4 then
    if digits = 3 || (digits = 0 && 3 ≤ letters) then add .picture else none
  else none

/-- The measure of a character that is drawn as one with a picture after it. -/
def pictureMeasure? (n : Nat) (follower : Follower) : Option Measure :=
  let add := fun (width : Int) (follower : Follower) => some (width, Following.mk follower .none)
  match follower with
  | .modifier =>
    if (propertyTable.get "ebase").contains n then add 0 .picture
    else if n = 0x200D then add 0 .joined
    else none
  | .indicator => if isIndicator n then add 1 .indicators else none
  | .indicators =>
    if isIndicator n then add 1 .indicators else if n = 0x200D then add 0 .joined else none
  | .picture => if n = 0x200D then add 0 .joined else none
  | .joined =>
    if n = 0x20E3 then add 0 .joinedKey
    else if isIndicator n then add 1 (.oddIndicators false)
    else if isModifier n then add 0 .modifier
    else if n = 0xE007F then add 0 (.tag 0 0)
    else if pictures.contains n then add 0 .picture
    else none
  | .oddIndicators areMore =>
    if isIndicator n then add (-1) .evenIndicators
    else if areMore && n = 0x200D then add 0 .joined
    else none
  | .evenIndicators =>
    if isIndicator n then add 3 (.oddIndicators true)
    else if n = 0x200D then add 0 .joined
    else none
  | .tag letters digits => tagMeasure? n letters digits
  | _ => none

/-- The measure of a character before others, where no form is chosen. -/
def measureBefore (n : Nat) (f : Following) : Measure :=
  if n ≤ 0xA0 then
    if n = 0x0D && f.follower = .lineFeed then (0, Following.nothing) else alone n
  else if f = Following.nothing then alone n
  else if n = 0xFE0F then (0, f.choose .picture)
  else if n = 0xFE0E then (0, f.choose .text)
  else if f.follower.isLetter && f.follower ≠ .alef && transparentMarks.contains n then
    (0, { f with follower := if n = 0x200D then f.follower.join else f.follower })
  else
    match f.follower with
    | .quoteForm isWide =>
      if isQuote n then (if isWide then 2 else 1, Following.nothing) else alone n
    | follower => (letterMeasure? n follower).or (pictureMeasure? n follower) |>.getD (alone n)

/-- The measure of a character before others. -/
def measure (n : Nat) (f : Following) : Measure :=
  if f.style = .picture && styled.contains n then
    (if f.follower.isJoined then 0 else 2, ⟨.picture, .none⟩)
  else if f.style = .text && narrowedPictures.contains n then (1, Following.nothing)
  else measureBefore n f.unstyled

/-- How many columns a text takes. -/
def textColumns (s : String) : Nat :=
  let (width, _) := s.toList.foldr
    (fun c (width, f) =>
      let (more, f) := measure c.toNat f
      (width + more, f))
    ((0 : Int), Following.nothing)
  width.toNat

end RdfStore.Unicode
