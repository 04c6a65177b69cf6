import RdfStore.Syntax.IriScope
import RdfStore.Term.Basic

/-!
# The terms that tokens denote

A scope turns the nodes of IRIs, prefixed names, literals and numbers into terms. The
readers of both languages use it, each with its own rules around the shared tokens.
-/

set_option autoImplicit false

namespace RdfStore.Syntax

open RdfStore.Peg

/-- An error with the index of the character where its token starts. -/
structure TokenFailure where
  index : Nat
  error : ScopeError

section Token

variable {R α : Type}

/-- Blames a token for an error. -/
def blame (token : ParseTree R) (r : Except ScopeError α) : Except TokenFailure α :=
  r.mapError fun e => ⟨token.start, e⟩

namespace IriScope

/-- The IRI of a token; `terminal?` tells which token a rule stands for. -/
def iri (scope : IriScope) (terminal? : R → Option Terminal) (token : ParseTree R) :
    Except TokenFailure Iri :=
  match terminal? token.rule with
  | some .iriRef => blame token (scope.reference (firstText token.children))
  | some .prefixedName | some .prefixedSpace => blame token (scope.prefixedName token.text)
  | _ => blame token (.error .notAnIri)

/-- The literal of a string with its language or datatype. -/
def literal (scope : IriScope) (terminal? : R → Option Terminal) (token : ParseTree R) :
    Except TokenFailure Literal :=
  match token.children with
  | [] => return Literal.plain ""
  | string :: rest => do
    let value ← blame string (lift (decodeLiteral (firstText string.children)))
    match rest with
    | [] => return Literal.plain value
    | suffix :: _ =>
      match terminal? suffix.rule with
      | some .languageTag =>
        blame suffix (lift (Literal.tagged value (String.ofList (suffix.text.drop 1))))
      | _ =>
        let datatype ← scope.iri terminal? suffix
        blame suffix (lift (Literal.checkedTyped value datatype))

end IriScope

end Token

/-- The datatype of a number written without quotes. -/
def Terminal.numericDatatype? : Terminal → Option Iri
  | .integer => some Vocabulary.xsdInteger
  | .decimal => some Vocabulary.xsdDecimal
  | .double => some Vocabulary.xsdDouble
  | _ => none

end RdfStore.Syntax
