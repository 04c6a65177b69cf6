import RdfStore.Iri.Reference
import RdfStore.Namespaces
import RdfStore.Peg.Match
import RdfStore.Syntax.Terminal
import RdfStore.Term.Reader

/-!
# IRIs and literals in context

Directives of a document, and the prologue of a query, set prefixes and a base. A scope
holds them and turns the tokens for IRIs, prefixed names and literals into terms.
-/

set_option autoImplicit false

namespace RdfStore.Syntax

open RdfStore.Peg

/-- Why a token of a matched text does not denote a term. -/
inductive ScopeError where
  | undefinedPrefix (name : String)
  | relativeWithoutBase (reference : String)
  | refused (error : TermError)
  /-- An IRI is expected where another token stands. -/
  | notAnIri

/-- The wording of an error. -/
def ScopeError.message : ScopeError → String
  | .undefinedPrefix name => "undefined prefix '" ++ name ++ ":'"
  | .relativeWithoutBase reference => "relative IRI <" ++ reference ++ "> without a base IRI"
  | .refused error => error.message
  | .notAnIri => "expected IRI"

/-- The base and the prefixes that hold at a place; the last definition of a prefix counts. -/
structure IriScope where
  base : Option String
  prefixes : List (String × String)

namespace IriScope

/-- No prefix is defined. -/
def ofBase (base : Option String) : IriScope := ⟨base, []⟩

/-- The scope after a prefix is defined. -/
def define (scope : IriScope) (name iri : String) : IriScope :=
  { scope with prefixes := (name, iri) :: scope.prefixes }

/-- Turns a term error into an error of the scope. -/
def lift {α : Type} (r : Except TermError α) : Except ScopeError α := r.mapError .refused

/-- The IRI written between angle brackets. -/
def reference (scope : IriScope) (content : List Char) : Except ScopeError Iri := do
  let decoded ← lift (decodeIri content)
  if Validity.isAbsolute decoded.toList then lift (Iri.of decoded)
  else
    match scope.base with
    | none => throw (.relativeWithoutBase decoded)
    | some base => lift do
      let resolved ← resolveIri base decoded
      Iri.of resolved

/-- Drops the backslashes that protect characters of a local name. -/
def unprotect : List Char → List Char
  | [] => []
  | ['\\'] => []
  | '\\' :: c :: rest => c :: unprotect rest
  | c :: rest => c :: unprotect rest

/-- The IRI that a prefixed name abbreviates. -/
def prefixedName (scope : IriScope) (text : List Char) : Except ScopeError Iri :=
  let (name, localName) := (splitAtColon text).getD (text, [])
  match scope.prefixes.lookup (String.ofList name) with
  | none => .error (.undefinedPrefix (String.ofList name))
  | some iri => lift (Iri.of (iri ++ String.ofList (unprotect localName)))

end IriScope

/-- The prefix that a token such as `ex:` defines. -/
def definedPrefix (token : List Char) : String := String.ofList token.dropLast

/-- The text of the first node, or nothing. -/
def firstText {R : Type} : List (ParseTree R) → List Char
  | [] => []
  | node :: _ => node.text

end RdfStore.Syntax
