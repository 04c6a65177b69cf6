/-!
# Places in a text

A place is known by its byte offset in UTF-8 and by its line and column, both of
which start at 1. `Position.after` computes all three from the text before the
place: `\n` and `\r\n` end a line, a lone `\r` is an ordinary character.
-/

set_option autoImplicit false

namespace RdfStore.Text

/-- A place in a text. -/
structure Position where
  byte : Nat
  line : Nat
  column : Nat
deriving DecidableEq

namespace Position

/-- The place before the first character. -/
def start : Position := ⟨0, 1, 1⟩

/-- Moves a place past the given characters. -/
def advance : Position → List Char → Position
  | p, [] => p
  | p, '\r' :: '\n' :: rest => advance ⟨p.byte + 2, p.line + 1, 1⟩ rest
  | p, c :: rest =>
    if c = '\n' then advance ⟨p.byte + 1, p.line + 1, 1⟩ rest
    else advance ⟨p.byte + c.utf8Size, p.line, p.column + 1⟩ rest

/-- The place right after the given characters of a text. -/
def after (before : List Char) : Position := start.advance before

/-- The place of the character with the given index. -/
def ofIndex (text : List Char) (index : Nat) : Position := after (text.take index)

end Position

end RdfStore.Text
