import RdfStore.Text.Escape
import RdfStore.Text.Utf8
import RdfStore.Yaml.Source

/-!
# YAML tags

A tag names the type of a node. It is written in full between angle brackets, or as a handle
and a suffix; a handle stands for the start of tags, as a directive or one of two defaults
says. Octets may be written as escapes. A tag is kept as its octets, each as the character
with its number. The fuel of a reader is greater than the length of its source. Handles,
directives and escapes are those of the scanner and the parser of `libyaml`.
-/

set_option autoImplicit false

namespace RdfStore.Yaml

/-! ## Tags as they are written -/

/-- A tag as it is written: a handle, empty for a tag in full, and a suffix. -/
structure WrittenTag where
  handle : String
  suffix : String
deriving DecidableEq

/-- Characters of a tag. -/
def isTagChar (c : Char) : Bool :=
  isNameChar c || [';', '/', '?', ':', '@', '&', '=', '+', '$', '.', '!', '~', '*', '\x27', '(',
    ')'].contains c

/-- Characters of a tag in full, and of what a handle stands for. -/
def isFullTagChar (c : Char) : Bool := isTagChar c || c == ',' || c == '[' || c == ']'

/-- An escaped octet: a percent sign and two digits. -/
def octet? : Source → Option (Nat × Source)
  | a :: b :: c :: rest =>
    if a.char = '%' then (Text.Escape.hexNumber? [b.char, c.char]).map fun n => (n, rest) else none
  | _ => none

/-- How many octets an encoded character has, by the first of them. -/
def octetCount? (first : Nat) : Option Nat :=
  if first < 0x80 then some 1
  else if first < 0xC0 then none
  else if first < 0xE0 then some 2
  else if first < 0xF0 then some 3
  else if first < 0xF8 then some 4
  else none

/-- Escaped octets that can only follow another one. -/
def moreOctets? : Nat → Source → Option (List Char × Source)
  | 0, s => some ([], s)
  | n + 1, s => do
    let (octet, rest) ← octet? s
    if 0x80 ≤ octet && octet < 0xC0 then
      let (octets, rest) ← moreOctets? n rest
      return (Char.ofNat octet :: octets, rest)
    else none

/-- The escaped octets of one character. -/
def escapedOctets? (s : Source) : Option (List Char × Source) := do
  let (first, rest) ← octet? s
  let count ← octetCount? first
  let (octets, rest) ← moreOctets? (count - 1) rest
  return (Char.ofNat first :: octets, rest)

/-- The characters of a class with escaped octets among them. -/
def tagText? (p : Char → Bool) : Nat → Source → Option (List Char × Source)
  | 0, _ => none
  | _, [] => some ([], [])
  | fuel + 1, a :: rest =>
    if a.char = '%' then do
      let (octets, rest) ← escapedOctets? (a :: rest)
      (tagText? p fuel rest).map fun r => (octets ++ r.1, r.2)
    else if p a.char then (tagText? p fuel rest).map fun r => (a.char :: r.1, r.2)
    else some ([], a :: rest)

/-- A part of a tag that is not empty. -/
def tagPart? (p : Char → Bool) (fuel : Nat) (s : Source) : Option (String × Source) :=
  (tagText? p fuel s).bind fun r =>
    if r.1.isEmpty then none else some (String.ofList r.1, r.2)

/-- A handle: the characters of a name after an exclamation mark, and whether a second mark
closes it. -/
def handle? : Source → Option (List Char × Bool × Source)
  | [] => none
  | a :: rest =>
    if a.char = '!' then
      let (name, after) := run isNameChar rest
      some (name, startsWith '!' after, if startsWith '!' after then after.tail else after)
    else none

/-- The text of a handle that is closed. -/
def closedHandle (name : List Char) : String := String.ofList ('!' :: (name ++ ['!']))

/-- Reads a tag from its exclamation mark on. A mark alone is a tag in full. -/
def writtenTag? (fuel : Nat) (s : Source) : Option (WrittenTag × Source) := do
  if startsWith '<' s.tail then
    let (text, rest) ← tagPart? isFullTagChar fuel s.tail.tail
    if startsWith '>' rest then return (⟨"", text⟩, rest.tail) else none
  else
    let (name, isClosed, rest) ← handle? s
    if isClosed then
      let (suffix, rest) ← tagPart? isTagChar fuel rest
      return (⟨closedHandle name, suffix⟩, rest)
    else
      let (more, rest) ← tagText? isTagChar fuel rest
      let suffix := String.ofList (name ++ more)
      return (if suffix.isEmpty then ⟨"", "!"⟩ else ⟨"!", suffix⟩, rest)

/-! ## Tags -/

/-- The octets of a tag. -/
abbrev Tag := String

/-- Handles with what they stand for. -/
abbrev Handles := List (String × String)

/-- The handles that every document has. -/
def defaultHandles : Handles := [("!", "!"), ("!!", "tag:yaml.org,2002:")]

/-- The tag that is written. -/
def WrittenTag.tag? (handles : Handles) (t : WrittenTag) : Option Tag :=
  if t.handle.isEmpty then some t.suffix else (handles.lookup t.handle).map (· ++ t.suffix)

namespace Tag

/-- The tag of a basic type. -/
def basic (name : String) : Tag := "tag:yaml.org,2002:" ++ name

/-- The name in a tag that belongs to the program which reads it: an exclamation mark and an
encoded text. -/
def localName? (tag : Tag) : Option String :=
  match tag.toList with
  | '!' :: octets => (Text.Utf8.decode (octets.map fun c => UInt8.ofNat c.toNat)).toOption
  | _ => none

end Tag

end RdfStore.Yaml
