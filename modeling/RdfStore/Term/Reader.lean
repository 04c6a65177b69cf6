import RdfStore.Term.Build
import RdfStore.Text.CharClass

/-!
# Reading one term

`Term.read` takes the text of a single term: `_:label`, `<iri>`, `scheme:rest` without
white space in `rest`, a quoted literal with an optional language or datatype, and
anything else as the lexical form of a plain literal. Escapes are decoded in every
literal and inside `<…>`.
-/

set_option autoImplicit false

namespace RdfStore

open RdfStore.Text

/-- What stands between the given characters at both ends of a text. -/
def enclosed? (first last : Char) : List Char → Option (List Char)
  | [] => none
  | c :: rest => if c = first && rest.getLast? = some last then some rest.dropLast else none

/-- Decodes the escapes of a lexical form. -/
def decodeLiteral (cs : List Char) : Except TermError String :=
  match Escape.decode .literal cs with
  | some value => .ok (String.ofList value)
  | none => .error (.invalidLiteralEscape (String.ofList cs))

/-- Decodes the escapes of an IRI. -/
def decodeIri (cs : List Char) : Except TermError String :=
  match Escape.decode .iri cs with
  | some value => .ok (String.ofList value)
  | none => .error (.invalidIri (String.ofList cs))

/-- Cuts a text at the first double quote that no backslash escapes. -/
def splitAtQuote : List Char → Option (List Char × List Char)
  | [] => none
  | '\\' :: c :: rest => (splitAtQuote rest).map fun r => ('\\' :: c :: r.1, r.2)
  | c :: rest =>
    if c = '"' then some ([], rest) else (splitAtQuote rest).map fun r => (c :: r.1, r.2)

/-- A literal whose lexical form and the text after its closing quote are known. -/
def Literal.ofParts (written : List Char) (value : String) (suffix : List Char) :
    Except TermError Literal :=
  match suffix with
  | [] => .ok (Literal.plain value)
  | '@' :: language => Literal.tagged value (String.ofList language)
  | '^' :: '^' :: datatype =>
    match enclosed? '<' '>' datatype with
    | some inner => do
      let text ← decodeIri inner
      Literal.checkedTyped value (← Iri.of text)
    | none => .error (.malformedLiteral (String.ofList written))
  | _ => .error (.malformedLiteral (String.ofList written))

/-- A literal that starts with a double quote; `body` is what follows the quote. -/
def Literal.readQuoted (body : List Char) : Except TermError Literal :=
  match splitAtQuote body with
  | some (lexical, suffix) => do
    let value ← decodeLiteral lexical
    Literal.ofParts ('"' :: body) value suffix
  | none => .error (.malformedLiteral (String.ofList ('"' :: body)))

/-- Reads the text of one term. -/
def Term.read (text : String) : Except TermError Term :=
  let cs := text.toList
  match cs with
  | '_' :: ':' :: label => Term.blank <$> BlankNode.of (String.ofList label)
  | _ =>
    match enclosed? '<' '>' cs with
    | some inner => do
      let decoded ← decodeIri inner
      Term.iri <$> Iri.of decoded
    | none =>
      if (Validity.afterScheme? cs).any fun rest => !rest.any isSpace then
        Term.iri <$> Iri.of text
      else
        match cs with
        | '"' :: body => Term.literal <$> Literal.readQuoted body
        | _ => (fun value => Term.literal (Literal.plain value)) <$> decodeLiteral cs

/-- Reads a term that can be a subject. -/
def Subject.read (text : String) : Except TermError Subject := do
  (← Term.read text).toSubject

/-- Reads a term that can be a predicate. -/
def Iri.readPredicate (text : String) : Except TermError Iri := do
  (← Term.read text).toPredicate

/-- Reads the three terms of a triple, in the order of their positions. -/
def Triple.read (subject predicate object : String) : Except TermError Triple := do
  let s ← Subject.read subject
  let p ← Iri.readPredicate predicate
  let o ← Term.read object
  return ⟨s, p, o⟩

end RdfStore
