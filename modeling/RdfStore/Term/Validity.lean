import RdfStore.Text.CharClass

/-!
# Well-formed names

The texts that can be IRIs, blank node labels and language tags. Each test agrees with
the terminal of the same name in the Turtle and SPARQL grammars. `TermError` names the
causes for refusing a term, `TermError.message` words them.
-/

set_option autoImplicit false

namespace RdfStore

/-! ## Why a term is refused -/

/-- The places of a triple that do not take every term. -/
inductive Role where
  | subject
  | predicate
deriving DecidableEq

/-- The name of a role. -/
def Role.name : Role → String
  | .subject => "subject"
  | .predicate => "predicate"

/-- The causes for refusing a term. -/
inductive TermError where
  /-- The text is no absolute IRI, or cannot be resolved to one. -/
  | invalidIri (text : String)
  | invalidBlankNodeLabel (label : String)
  /-- The text holds an unknown escape or an escape of no character. -/
  | invalidLiteralEscape (text : String)
  /-- A quoted literal is not closed or goes on after its end. -/
  | malformedLiteral (text : String)
  /-- The datatype needs a language tag. -/
  | invalidDatatype (datatype : String)
  | invalidLanguageTag (tag : String)
  /-- The term, given as it is written, cannot stand in this role. -/
  | invalidPosition (written : String) (role : Role)
deriving DecidableEq

/-- The wording of an error. -/
def TermError.message : TermError → String
  | .invalidIri text => "Invalid IRI: " ++ text
  | .invalidBlankNodeLabel label => "Invalid blank node label: " ++ label
  | .invalidLiteralEscape text => "Invalid escape sequence in literal: " ++ text
  | .malformedLiteral text => "Malformed literal: " ++ text
  | .invalidDatatype datatype => "Invalid literal datatype: " ++ datatype
  | .invalidLanguageTag tag => "Invalid language tag: " ++ tag
  | .invalidPosition written role => written ++ " is not allowed as " ++ role.name

/-! ## Texts of names -/

namespace Validity

open Text

/-- Characters that never stand inside `<…>`. -/
def isIriForbidden (c : Char) : Bool :=
  c.toNat ≤ 0x20 || c == '<' || c == '>' || c == '"' || c == '\x7b' || c == '\x7d'
    || c == '|' || c == '^' || c == '\x60' || c == '\\'

/-- A text without characters that are forbidden in an IRI. -/
def isIriText (cs : List Char) : Bool := cs.all fun c => !isIriForbidden c

/-- Characters that may follow the first letter of a scheme. -/
def isSchemeChar (c : Char) : Bool :=
  isAsciiAlphanumeric c || c == '+' || c == '-' || c == '.'

/-- The part of a text after its scheme and colon, if it starts with a scheme. -/
def afterScheme? : List Char → Option (List Char)
  | [] => none
  | c :: rest =>
    if isAsciiLetter c then
      match rest.dropWhile isSchemeChar with
      | ':' :: tail => some tail
      | _ => none
    else none

/-- A text that starts with a scheme and a colon. -/
def isAbsolute (cs : List Char) : Bool := (afterScheme? cs).isSome

/-- A label: name characters and inner dots, starting with a letter, `_` or a digit. -/
def isLabel : List Char → Bool
  | [] => false
  | c :: rest =>
    isLabelStart c && rest.all (fun d => isNameChar d || d == '.')
      && (c :: rest).getLast? != some '.'

/-- The subtags of a language tag: `-` and at least one letter or digit, any number of times. -/
def isSubtags : List Char → Bool
  | [] => true
  | '-' :: c :: rest =>
    isAsciiAlphanumeric c && isSubtagRest rest
  | _ => false
where
  /-- The characters after the first one of a subtag. -/
  isSubtagRest : List Char → Bool
    | [] => true
    | '-' :: c :: rest => isAsciiAlphanumeric c && isSubtagRest rest
    | c :: rest => isAsciiAlphanumeric c && isSubtagRest rest

/-- A language tag: letters, then subtags. -/
def isLanguageTag (cs : List Char) : Bool :=
  !(cs.takeWhile isAsciiLetter).isEmpty && isSubtags (cs.dropWhile isAsciiLetter)

end Validity

end RdfStore
