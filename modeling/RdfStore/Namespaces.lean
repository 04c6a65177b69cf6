import RdfStore.Text.CharClass

/-!
# Namespaces

A table of prefixes and the IRIs they abbreviate, in the order of registration.
Registering a prefix again replaces its IRI and keeps its place. `compactParts?` splits
an IRI at the longest registered namespace that leaves a simple local name.
-/

set_option autoImplicit false

namespace RdfStore

open RdfStore.Text

/-- Prefixes with their IRIs, in the order of registration, each prefix once. -/
structure Namespaces where
  entries : List (String × String)

/-- Why a compact IRI cannot be expanded. -/
inductive ExpandError where
  | unknownPrefix (name : String)
  /-- The text has no colon. -/
  | invalidIri (text : String)

/-- The wording of an error. -/
def ExpandError.message : ExpandError → String
  | .unknownPrefix name => "Unknown prefix: " ++ name
  | .invalidIri text => "Invalid IRI: " ++ text

/-- A local name that is read back in every place: empty, or a letter or `_` followed by
letters, digits, `_` and `-`. -/
def isSimpleLocalName : List Char → Bool
  | [] => true
  | c :: rest =>
    (isAsciiLetter c || c == '_') && rest.all fun d => isAsciiAlphanumeric d || d == '_' || d == '-'

/-- What follows the first list in the second, if the second starts with the first. -/
def stripStart? : List Char → List Char → Option (List Char)
  | [], cs => some cs
  | _ :: _, [] => none
  | p :: ps, c :: cs => if p = c then stripStart? ps cs else none

/-- Cuts a text at its first colon. -/
def splitAtColon : List Char → Option (List Char × List Char)
  | [] => none
  | c :: rest =>
    if c = ':' then some ([], rest) else (splitAtColon rest).map fun r => (c :: r.1, r.2)

namespace Namespaces

/-- No prefix at all. -/
def empty : Namespaces := ⟨[]⟩

/-- Puts an entry in the place of the one with the same prefix, or at the end. -/
def insertEntry (name iri : String) : List (String × String) → List (String × String)
  | [] => [(name, iri)]
  | entry :: rest =>
    if entry.1 = name then (name, iri) :: rest else entry :: insertEntry name iri rest

/-- Registers a prefix. -/
def add (ns : Namespaces) (name iri : String) : Namespaces := ⟨insertEntry name iri ns.entries⟩

/-- Registers prefixes one after the other. -/
def addAll (ns : Namespaces) (entries : List (String × String)) : Namespaces :=
  entries.foldl (fun ns entry => ns.add entry.1 entry.2) ns

/-- The prefixes in common use. -/
def standard : Namespaces :=
  empty.addAll
    [("rdf", "http://www.w3.org/1999/02/22-rdf-syntax-ns#"),
     ("rdfs", "http://www.w3.org/2000/01/rdf-schema#"),
     ("xsd", "http://www.w3.org/2001/XMLSchema#"),
     ("owl", "http://www.w3.org/2002/07/owl#"),
     ("foaf", "http://xmlns.com/foaf/0.1/"),
     ("dc", "http://purl.org/dc/elements/1.1/"),
     ("dcterms", "http://purl.org/dc/terms/")]

/-- The number of registered prefixes. -/
def size (ns : Namespaces) : Nat := ns.entries.length

/-- The IRI of a prefix. -/
def iri? (ns : Namespaces) (name : String) : Option String := ns.entries.lookup name

/-- The IRI of a prefix, or the error that names it. -/
def iri (ns : Namespaces) (name : String) : Except ExpandError String :=
  match ns.iri? name with
  | some iri => .ok iri
  | none => .error (.unknownPrefix name)

/-- Replaces the prefix before the first colon by its IRI. -/
def expand (ns : Namespaces) (text : String) : Except ExpandError String :=
  match splitAtColon text.toList with
  | some (name, localName) => do
    let iri ← ns.iri (String.ofList name)
    return iri ++ String.ofList localName
  | none => .error (.invalidIri text)

/-- One way to split an IRI: the prefix, the size of its IRI, and the local name. -/
structure Split where
  name : String
  size : Nat
  localName : String

/-- The split that an entry allows, if its IRI starts the text and leaves a simple name. -/
def splitBy? (text : List Char) (entry : String × String) : Option Split :=
  match stripStart? entry.2.toList text with
  | some rest =>
    if isSimpleLocalName rest then some ⟨entry.1, entry.2.utf8ByteSize, String.ofList rest⟩
    else none
  | none => none

/-- The longer of two splits; of equally long ones the later. -/
def longer (best : Option Split) (next : Split) : Option Split :=
  match best with
  | some split => if next.size < split.size then some split else some next
  | none => some next

/-- Splits an IRI at its longest registered namespace; of equally long ones the last. -/
def compactParts? (ns : Namespaces) (iri : String) : Option (String × String) :=
  ((ns.entries.filterMap (splitBy? iri.toList)).foldl longer none).map
    fun split => (split.name, split.localName)

/-- The compact form of an IRI. -/
def compact? (ns : Namespaces) (iri : String) : Option String :=
  (ns.compactParts? iri).map fun parts => parts.1 ++ ":" ++ parts.2

end Namespaces

end RdfStore
