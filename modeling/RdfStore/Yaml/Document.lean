import RdfStore.Yaml.Node

/-!
# YAML documents

`Document.read?` reads a text with one document, from its tokens. A text without any
document stands for a node that is left out.

Documents are those of the library `serde_yaml`, which reads them with a translation of `libyaml`:
the syntax of YAML 1.1 as that scanner and parser take it, and one document in a text.
-/

set_option autoImplicit false

namespace RdfStore.Yaml

/-- A document. -/
structure Document where
  root : Node

/-! ## Reading from tokens -/

/-- What is left to read, and what the names of anchors stand for so far. -/
structure Reading where
  tokens : List Token
  /-- The numbers of the anchors by their names. -/
  names : List (String × Nat) := []

/-- Reads a part of a document. -/
abbrev Reader := StateT Reading Option

namespace Reader

/-- The next token, which is not taken. -/
def peek : Reader (Option Token) := do return (← get).tokens.head?

/-- Takes a token. -/
def advance : Reader Unit := modify fun r => { r with tokens := r.tokens.tail }

/-- Takes the next token if it is the given one. -/
def takes (token : Token) : Reader Bool := do
  if (← peek) = some token then
    advance
    return true
  else return false

/-- Takes a token, which has to be the given one. -/
def expect (token : Token) : Reader Unit := do if !(← takes token) then failure

/-- Whether the next token is one of the given ones. -/
def isAt (tokens : List Token) : Reader Bool := do
  return (← peek).any fun token => tokens.contains token

/-- The number of a name that is in use. -/
def numberOf (name : String) : Reader Nat := do (← get).names.lookup name

/-- The number of a new anchor. -/
def newNumber (name : String) : Reader Nat := do
  let others := (← get).names.filter fun entry => entry.1 != name
  let number := (← get).names.length
  modify fun r => { r with names := (name, number) :: others }
  return number

/-- An anchor, if one comes next. -/
def anchorName? : Reader (Option String) := do
  match ← peek with
  | some (.anchor name) => advance; return some name
  | _ => return none

/-- A tag, if one comes next. -/
def tag? (handles : Handles) : Reader (Option Tag) := do
  match ← peek with
  | some (.tag written) =>
    advance
    let tag ← written.tag? handles
    return some tag
  | _ => return none

/-- An anchor and a tag, in either order. -/
def properties (handles : Handles) : Reader Properties := do
  match ← anchorName? with
  | some name =>
    let tag ← tag? handles
    return ⟨some (← newNumber name), tag⟩
  | none =>
    let tag ← tag? handles
    match ← (if tag.isSome then anchorName? else pure none) with
    | some name => return ⟨some (← newNumber name), tag⟩
    | none => return ⟨none, tag⟩

/-- The tag of a scalar; a single exclamation mark says nothing. -/
def scalarProperties (p : Properties) : Properties :=
  if p.tag = some "!" then { p with tag := none } else p

end Reader

open Reader

mutual

/-- A node. Items may be allowed to stand here without a token for the start of their
sequence. -/
def readNode (handles : Handles) : Nat → Bool → Reader Node
  | 0, _ => failure
  | fuel + 1, allowsItems => do
    match ← peek with
    | some (.alias name) => advance; return .alias (← numberOf name)
    | _ =>
      let p ← properties handles
      match ← peek with
      | some (.scalar text style) => advance; return .scalar (scalarProperties p) text style
      | some .openSequence => advance; return .sequence p (← readInner handles fuel true)
      | some .openMapping => advance; return .mapping p (← readMembers handles fuel true)
      | some .blockSequence => advance; return .sequence p (← readItems handles fuel)
      | some .blockMapping => advance; return .mapping p (← readEntries handles fuel)
      | next =>
        if allowsItems && next = some .dash then return .sequence p (← readDashes handles fuel)
        else if p = {} then failure
        else return .scalar p "" .plain

/-- A node, or one that is left out if one of the given tokens comes next. -/
def readUnless (handles : Handles) : Nat → Bool → List Token → Reader Node
  | 0, _, _ => failure
  | fuel + 1, allowsItems, ends => do
    if ← isAt ends then return .nothing else readNode handles fuel allowsItems

/-- The items of a sequence by indentation. -/
def readItems (handles : Handles) : Nat → Reader (List Node)
  | 0 => failure
  | fuel + 1 => do
    if ← takes .blockEnd then return []
    expect .dash
    let item ← readUnless handles fuel false [.dash, .blockEnd]
    return item :: (← readItems handles fuel)

/-- The items of a sequence that stands in a mapping without an indentation of its own. -/
def readDashes (handles : Handles) : Nat → Reader (List Node)
  | 0 => failure
  | fuel + 1 => do
    if ← takes .dash then
      let item ← readUnless handles fuel false [.dash, .key, .value, .blockEnd]
      return item :: (← readDashes handles fuel)
    else return []

/-- The entries of a mapping by indentation. -/
def readEntries (handles : Handles) : Nat → Reader (List (Node × Node))
  | 0 => failure
  | fuel + 1 => do
    if ← takes .blockEnd then return []
    expect .key
    let key ← readUnless handles fuel true [.key, .value, .blockEnd]
    let value ← readValue handles fuel true [.key, .value, .blockEnd]
    return (key, value) :: (← readEntries handles fuel)

/-- The value of an entry, which may be left out. -/
def readValue (handles : Handles) : Nat → Bool → List Token → Reader Node
  | 0, _, _ => failure
  | fuel + 1, allowsItems, ends => do
    if ← takes .value then readUnless handles fuel allowsItems ends else return .nothing

/-- The items of a sequence in brackets. -/
def readInner (handles : Handles) : Nat → Bool → Reader (List Node)
  | 0, _ => failure
  | fuel + 1, isFirst => do
    if ← takes .closeSequence then return []
    if !isFirst then expect .comma
    if ← takes .closeSequence then return []
    let item ← if ← takes .key then readPair handles fuel else readNode handles fuel false
    return item :: (← readInner handles fuel false)

/-- A mapping of one entry among the items of a sequence, after the token for its key. Where
the key is left out, the token after it is passed over. -/
def readPair (handles : Handles) : Nat → Reader Node
  | 0 => failure
  | fuel + 1 => do
    let isLeftOut ← isAt [.value, .comma, .closeSequence]
    let key ← if isLeftOut then do advance; pure .nothing else readNode handles fuel false
    let value ← readValue handles fuel false [.comma, .closeSequence]
    return .mapping {} [(key, value)]

/-- The entries of a mapping in braces. -/
def readMembers (handles : Handles) : Nat → Bool → Reader (List (Node × Node))
  | 0, _ => failure
  | fuel + 1, isFirst => do
    if ← takes .closeMapping then return []
    if !isFirst then expect .comma
    if ← takes .closeMapping then return []
    let entry ←
      if ← takes .key then do
        let key ← readUnless handles fuel false [.value, .comma, .closeMapping]
        pure (key, ← readValue handles fuel false [.comma, .closeMapping])
      else do pure (← readNode handles fuel false, .nothing)
    return entry :: (← readMembers handles fuel false)

end

/-! ## Documents -/

/-- Whether a token starts or ends a document. -/
def isBoundary : Token → Bool
  | .version _ _ => true
  | .handle _ _ => true
  | .documentStart => true
  | .documentEnd => true
  | _ => false

/-- The handles that the directives before a document define; at most one directive gives a
version, and each handle is defined once. -/
def readDirectives (hasVersion : Bool) (handles : Handles) :
    List Token → Option (Handles × List Token)
  | .version major minor :: rest =>
    if hasVersion || major != 1 || (minor != 1 && minor != 2) then none
    else readDirectives true handles rest
  | .handle name start :: rest =>
    if (handles.lookup name).isSome then none
    else readDirectives hasVersion ((name, start) :: handles) rest
  | tokens => some (handles, tokens)

/-- The node of a document, with what follows it. -/
def readRoot? (handles : Handles) (tokens : List Token) : Option (Node × List Token) :=
  (readNode (handles ++ defaultHandles) (4 * tokens.length + 4) false ⟨tokens, []⟩).map
    fun r => (r.1, r.2.tokens)

/-- The node of a document that starts with directives or with a marker. -/
def readExplicit? (tokens : List Token) : Option (Node × List Token) := do
  match ← readDirectives false [] tokens with
  | (handles, .documentStart :: rest) =>
    if rest.head?.all isBoundary then return (.nothing, rest) else readRoot? handles rest
  | _ => none

/-- The only document of some tokens. -/
def Document.ofTokens? (tokens : List Token) : Option Document := do
  match tokens with
  | [] => return ⟨.nothing⟩
  | first :: _ =>
    let isImplicit := !isBoundary first || first = .documentEnd
    let (root, rest) ← if isImplicit then readRoot? [] tokens else readExplicit? tokens
    if rest.all (· = .documentEnd) then return ⟨root⟩ else none

/-- The only document of a text. -/
def Document.read? (text : String) : Option Document :=
  (Token.ofText? text).bind Document.ofTokens?

end RdfStore.Yaml
