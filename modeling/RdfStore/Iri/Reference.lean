import RdfStore.Term.Validity
import RdfStore.Text.CharClass

/-!
# IRI references

`Reference.parse` splits a text into scheme, authority, path, query and fragment. It
reads from left to right and names the first fault. `resolve` turns a reference into an
IRI with the help of a base: dot segments are removed when the reference has neither a
scheme nor an authority of its own.

This is what the library `oxiri` documents of its parser and of its resolution, with the wording
of its errors and the order in which it looks for them.
-/

set_option autoImplicit false

/-!
## Addresses in IRIs

The texts that can stand between the brackets of a host: an IPv6 address, whose last two
groups may be written as an IPv4 address and in which `::` stands for at least one group
of zeros.
-/

namespace RdfStore.Host

open RdfStore.Text

/-- A group of an IPv6 address: one to four hexadecimal digits. -/
def isGroup (cs : List Char) : Bool := !cs.isEmpty && cs.length ≤ 4 && cs.all isHexDigit

/-- A part of an IPv4 address: a number up to 255 without leading zeros. -/
def isByte (cs : List Char) : Bool :=
  !cs.isEmpty && cs.length ≤ 3 && cs.all isAsciiDigit && (cs.length == 1 || cs.head? != some '0')
    && decide (cs.foldl (fun n c => n * 10 + (c.toNat - 0x30)) 0 ≤ 255)

/-- Four numbers separated by dots. -/
def isIpv4 (cs : List Char) : Bool :=
  let parts := cs.splitOn '.'
  parts.length == 4 && parts.all isByte

/-- How many groups a list of parts stands for; only the last may be an IPv4 address. -/
def countGroups? (ipv4Allowed : Bool) : List (List Char) → Option Nat
  | [] => some 0
  | [part] =>
    if isGroup part then some 1 else if ipv4Allowed && isIpv4 part then some 2 else none
  | part :: parts =>
    if isGroup part then (countGroups? ipv4Allowed parts).map (· + 1) else none

/-- The number of groups of a text; the empty text has none. -/
def groupsOf? (ipv4Allowed : Bool) (cs : List Char) : Option Nat :=
  if cs.isEmpty then some 0 else countGroups? ipv4Allowed (cs.splitOn ':')

/-- Cuts a text at its first `::`. -/
def splitAtGap : List Char → Option (List Char × List Char)
  | ':' :: ':' :: rest => some ([], rest)
  | c :: rest => (splitAtGap rest).map fun r => (c :: r.1, r.2)
  | [] => none

/-- An IPv6 address. -/
def isIpv6 (cs : List Char) : Bool :=
  match splitAtGap cs with
  | some (front, back) =>
    match groupsOf? false front, groupsOf? true back with
    | some m, some n => m + n ≤ 7
    | _, _ => false
  | none => groupsOf? true cs == some 8

end RdfStore.Host

namespace RdfStore

open RdfStore.Text

/-- The first thing that is wrong in an IRI or an IRI reference. -/
inductive ReferenceFault where
  | noScheme
  | codePoint (c : Char)
  /-- A percent sign and up to two characters after it. -/
  | percentEncoding (written : List Char)
  | portCharacter (c : Char)
  | hostCharacter (c : Char)
  | hostAddress
  /-- A path without authority would start with `//`. -/
  | pathStart

/-- The wording of a fault. -/
def ReferenceFault.message : ReferenceFault → String
  | .noScheme => "No scheme found in an absolute IRI"
  | .codePoint c => String.ofList ("Invalid IRI code point '".toList ++ [c, '\x27'])
  | .percentEncoding written =>
    String.ofList ("Invalid IRI percent encoding '".toList ++ written ++ ['\x27'])
  | .portCharacter c => String.ofList ("Invalid character '".toList ++ [c, '\x27'])
  | .hostCharacter c => String.ofList ("Invalid character '".toList ++ c :: "' in host".toList)
  | .hostAddress => "Invalid host IP (invalid IPv6 address syntax)"
  | .pathStart => "An IRI path is not allowed to start with //"

/-- The components of an IRI or of an IRI reference. -/
structure Reference where
  scheme : Option (List Char)
  authority : Option (List Char)
  path : List Char
  query : Option (List Char)
  fragment : Option (List Char)

namespace Reference

/-- Unreserved characters of IRIs and the delimiters allowed in every component. -/
def isPlainChar (c : Char) : Bool :=
  let n := c.toNat
  isAsciiAlphanumeric c || c == '-' || c == '.' || c == '_' || c == '~'
    || c == '!' || c == '$' || c == '&' || c == '\x27' || c == '(' || c == ')' || c == '*'
    || c == '+' || c == ',' || c == ';' || c == '='
    || (0xA0 ≤ n && n ≤ 0xD7FF) || (0xF900 ≤ n && n ≤ 0xFDCF) || (0xFDF0 ≤ n && n ≤ 0xFFEF)
    || (0x10000 ≤ n && n ≤ 0xDFFFD && n % 0x10000 ≤ 0xFFFD) || (0xE1000 ≤ n && n ≤ 0xEFFFD)

/-- Characters of a path segment. -/
def isSegmentChar (c : Char) : Bool := isPlainChar c || c == ':' || c == '@'

/-- Characters for private use, allowed in a query only. -/
def isPrivate (c : Char) : Bool :=
  let n := c.toNat
  (0xE000 ≤ n && n ≤ 0xF8FF) || (0xF0000 ≤ n && n ≤ 0xFFFFD) || (0x100000 ≤ n && n ≤ 0x10FFFD)

/-- Reads allowed characters and percent encodings up to a stop character, the end, or a
fault; gives what was read, and then the rest or the fault. -/
def scanAsFar (isAllowed isStop : Char → Bool) :
    List Char → List Char × Except ReferenceFault (List Char)
  | [] => ([], .ok [])
  | c :: rest =>
    if isStop c then ([], .ok (c :: rest))
    else if c = '%' then
      match rest with
      | a :: b :: tail =>
        if isHexDigit a && isHexDigit b then
          let (read, outcome) := scanAsFar isAllowed isStop tail
          ('%' :: a :: b :: read, outcome)
        else ([], .error (.percentEncoding ['%', a, b]))
      | short => ([], .error (.percentEncoding ('%' :: short)))
    else if isAllowed c then
      let (read, outcome) := scanAsFar isAllowed isStop rest
      (c :: read, outcome)
    else ([], .error (.codePoint c))

/-- Reads allowed characters and percent encodings up to a stop character or the end. -/
def scan (isAllowed isStop : Char → Bool) (cs : List Char) :
    Except ReferenceFault (List Char × List Char) :=
  let (read, outcome) := scanAsFar isAllowed isStop cs
  outcome.map fun rest => (read, rest)

/-- The end of a path. -/
def endsPath (c : Char) : Bool := c == '?' || c == '#'

/-- The end of an authority. -/
def endsAuthority (c : Char) : Bool := c == '/' || endsPath c

/-- Reads the digits of a port. -/
def scanPort : List Char → Except ReferenceFault (List Char × List Char)
  | [] => .ok ([], [])
  | c :: rest =>
    if endsAuthority c then .ok ([], c :: rest)
    else if isAsciiDigit c then (fun r => (c :: r.1, r.2)) <$> scanPort rest
    else .error (.portCharacter c)

/-- A bracketed address that names its own version: hexadecimal digits, a dot, and then
characters of ASCII. What ends too early is blamed on the character after it. -/
def checkFutureAddress (rest : List Char) : Except ReferenceFault Unit :=
  let isAddressChar := fun c => (c.toNat < 0x80 && isPlainChar c) || c == ':'
  let afterNumber := rest.dropWhile isHexDigit
  match afterNumber with
  | [] => .error (.hostCharacter ']')
  | c :: tail =>
    if c != '.' then .error (.hostCharacter c)
    else if (rest.takeWhile isHexDigit).isEmpty || tail.isEmpty then
      .error (.hostCharacter (tail.head?.getD ']'))
    else
      match tail.find? fun d => !isAddressChar d with
      | some d => .error (.hostCharacter d)
      | none => .ok ()

/-- Checks what stands between the brackets of a host. -/
def checkAddress (address : List Char) : Except ReferenceFault Unit :=
  match address with
  | c :: rest =>
    if c = 'v' || c = 'V' then checkFutureAddress rest
    else if Host.isIpv6 address then .ok ()
    else .error .hostAddress
  | [] => .error .hostAddress

/-- Cuts a text after its first closing bracket. -/
def splitAtBracket : List Char → Option (List Char × List Char)
  | [] => none
  | c :: rest =>
    if c = ']' then some ([], rest) else (splitAtBracket rest).map fun r => (c :: r.1, r.2)

/-- Reads what follows a host: nothing, or a colon and a port. -/
def scanAfterHost (isBracketed : Bool) : List Char → Except ReferenceFault (List Char × List Char)
  | [] => .ok ([], [])
  | c :: rest =>
    if c = ':' then (fun r => (':' :: r.1, r.2)) <$> scanPort rest
    else if endsAuthority c then .ok ([], c :: rest)
    else .error (if isBracketed then .hostCharacter c else .codePoint c)

/-- Reads a host and its port. -/
def scanHost : List Char → Except ReferenceFault (List Char × List Char)
  | '[' :: rest =>
    match splitAtBracket rest with
    | some (address, tail) => do
      checkAddress address
      let (port, tail) ← scanAfterHost true tail
      return ('[' :: address ++ ']' :: port, tail)
    | none => .error (.hostCharacter '[')
  | cs => do
    let (name, tail) ← scan isPlainChar (fun c => c == ':' || endsAuthority c) cs
    let (port, tail) ← scanAfterHost false tail
    return (name ++ port, tail)

/-- Reads an authority: an optional user, a host, an optional port. -/
def scanAuthority (cs : List Char) : Except ReferenceFault (List Char × List Char) := do
  let isUserEnd := fun c => c == '@' || c == '[' || endsAuthority c
  match ← scan (fun c => isPlainChar c || c == ':') isUserEnd cs with
  | (user, '@' :: tail) =>
    let (host, tail) ← scanHost tail
    return (user ++ '@' :: host, tail)
  | _ => scanHost cs

/-- Reads a query, if there is one. -/
def scanQuery : List Char → Except ReferenceFault (Option (List Char) × List Char)
  | '?' :: rest =>
    (fun r => (some r.1, r.2)) <$>
      scan (fun c => isSegmentChar c || c == '/' || c == '?' || isPrivate c) (· == '#') rest
  | cs => .ok (none, cs)

/-- Reads a fragment, if there is one. -/
def scanFragment : List Char → Except ReferenceFault (Option (List Char))
  | '#' :: rest =>
    (fun r => some r.1) <$>
      scan (fun c => isSegmentChar c || c == '/' || c == '?') (fun _ => false) rest
  | _ => .ok none

/-- Reads a path as far as it goes; without scheme and authority its first segment holds no
colon. -/
def scanPathAsFar (colonInFirst : Bool) (cs : List Char) :
    List Char × Except ReferenceFault (List Char) :=
  let isPathChar := fun c => isSegmentChar c || c == '/'
  if colonInFirst then scanAsFar isPathChar endsPath cs
  else
    match scanAsFar (fun c => isPlainChar c || c == '@') endsAuthority cs with
    | (first, .error f) => (first, .error f)
    | (first, .ok tail) =>
      let (more, outcome) := scanAsFar isPathChar endsPath tail
      (first ++ more, outcome)

/-- Reads a path. -/
def scanPath (colonInFirst : Bool) (cs : List Char) :
    Except ReferenceFault (List Char × List Char) :=
  let (path, outcome) := scanPathAsFar colonInFirst cs
  outcome.map fun rest => (path, rest)

/-- Reads everything after the scheme. -/
def parseAfterScheme (scheme : Option (List Char)) (cs : List Char) :
    Except ReferenceFault Reference := do
  let (authority, tail) ←
    match cs with
    | '/' :: '/' :: rest => (fun r => (some r.1, r.2)) <$> scanAuthority rest
    | _ => .ok (none, cs)
  let (path, tail) ← scanPath (scheme.isSome || authority.isSome) tail
  let (query, tail) ← scanQuery tail
  let fragment ← scanFragment tail
  return ⟨scheme, authority, path, query, fragment⟩

/-- Splits a text into its components. -/
def parse (cs : List Char) : Except ReferenceFault Reference :=
  match cs with
  | ':' :: _ => .error .noScheme
  | _ =>
    match Validity.afterScheme? cs with
    | some rest => parseAfterScheme (some (cs.take (cs.length - rest.length - 1))) rest
    | none => parseAfterScheme none cs

/-- Splits the text of an absolute IRI. -/
def parseAbsolute (cs : List Char) : Except ReferenceFault Reference := do
  let reference ← parse cs
  if reference.scheme.isSome then return reference else throw .noScheme

/-- The text of the components put together. -/
def text (r : Reference) : List Char :=
  (r.scheme.elim [] (· ++ [':'])) ++ (r.authority.elim [] ('/' :: '/' :: ·)) ++ r.path
    ++ (r.query.elim [] ('?' :: ·)) ++ (r.fragment.elim [] ('#' :: ·))

/-! ## Resolution -/

/-- A path up to and including its last slash. -/
def directory (path : List Char) : List Char := (path.reverse.dropWhile (· != '/')).reverse

/-- Goes up from a directory; above the top there is the root, or nothing without one. -/
def parent (root : List Char) (dir : List Char) : List Char :=
  match directory dir.dropLast with
  | [] => root
  | up => up

/-- Refuses a path that would be taken for an authority. -/
def checkStart (base : Reference) (path : List Char) : Except ReferenceFault (List Char) :=
  match base.authority, path with
  | none, '/' :: '/' :: _ => .error .pathStart
  | _, _ => .ok path

/-- The top of the paths under a base. -/
def root (base : Reference) : List Char := if base.authority.isSome then ['/'] else []

/-- The directory after one more segment with its slash. The path so far is looked at after
every dot segment. -/
def enter (base : Reference) (dir segment : List Char) : Except ReferenceFault (List Char) :=
  if segment = ['.'] then checkStart base dir
  else if segment = ['.', '.'] then checkStart base (parent (root base) dir)
  else .ok (dir ++ segment ++ ['/'])

/-- The path that ends with a segment in a directory. -/
def finish (base : Reference) (dir segment : List Char) : Except ReferenceFault (List Char) :=
  if segment = ['.'] then checkStart base dir
  else if segment = ['.', '.'] then checkStart base (parent (root base) dir)
  else checkStart base (dir ++ segment)

/-- The directory in which the segments of a relative path start, and the segments. -/
def segmentsFrom (base : Reference) (path : List Char) : List Char × List (List Char) :=
  match path with
  | '/' :: rest => (['/'], rest.splitOn '/')
  | _ => (if base.path.isEmpty then root base else directory base.path, path.splitOn '/')

/-- The path of a reference without scheme and authority, as seen from a base, and what
follows the path in the reference. The first fault from the left counts: every segment is
resolved as soon as it has been read. -/
def resolvePath (base : Reference) (cs : List Char) :
    Except ReferenceFault (List Char × List Char) := do
  let (path, outcome) := scanPathAsFar false cs
  let (start, segments) := segmentsFrom base path
  let dir ← segments.dropLast.foldlM (enter base) start
  let tail ← outcome
  if path.isEmpty then return (base.path, tail)
  else return (← finish base dir (segments.getLast?.getD []), tail)

/-- The IRI that a reference without scheme and authority denotes, as seen from a base. -/
def resolveRelative (base : Reference) (cs : List Char) : Except ReferenceFault Reference := do
  let (path, rest) ← resolvePath base cs
  let (query, tail) ← scanQuery rest
  let fragment ← scanFragment tail
  let hasPath := rest.length ≠ cs.length
  let query := if hasPath then query else query <|> base.query
  return { base with path := path, query := query, fragment := fragment }

/-- The IRI that the text of a reference denotes, as seen from a base. -/
def resolve (base : Reference) (cs : List Char) : Except ReferenceFault Reference :=
  match cs with
  | ':' :: _ => .error .noScheme
  | '/' :: '/' :: _ => (fun r => { r with scheme := base.scheme }) <$> parse cs
  | _ => if Validity.isAbsolute cs then parse cs else resolveRelative base cs

end Reference

/-- Resolves the text of a reference against the text of an absolute base. -/
def resolveIri (base reference : String) : Except TermError String :=
  let fault := fun (text : String) (f : ReferenceFault) =>
    TermError.invalidIri (text ++ ": " ++ f.message)
  if !Validity.isIriText reference.toList then .error (.invalidIri reference)
  else
    match Reference.parseAbsolute base.toList with
    | .error f => .error (fault base f)
    | .ok b =>
      match b.resolve reference.toList with
      | .error f => .error (fault reference f)
      | .ok r => .ok (String.ofList r.text)

end RdfStore
