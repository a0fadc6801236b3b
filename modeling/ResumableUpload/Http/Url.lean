import ResumableUpload.Http.Percent

/-!
# Absolute URLs

An absolute `http` or `https` URL is read as the URL standard has it: blanks of line ends are passed
over, a backslash counts as a slash, credentials are dropped, the host is a name or an address, dot
segments of the path are resolved, and bytes that may not stand in the path or the query are
escaped.  What follows `#` never travels and is dropped.
-/

namespace ResumableUpload.Http

/-- The machine that a URL leads to. -/
inductive Host where
  | ipv4 (address : Nat)
  | ipv6 (groups : List Nat)
  | name (labels : String)
deriving DecidableEq, Repr

/-- An absolute URL; its path begins with a slash. -/
structure Url where
  secure : Bool
  host : Host
  portNumber : Nat
  path : String
  query : Option String
deriving DecidableEq, Repr

namespace Host

/-- A part of an IPv4 address: hexadecimal after `0x`, octal after `0`, else decimal. -/
def ipv4Part? : List Char → Option Nat
  | [] => none
  | '0' :: 'x' :: rest | '0' :: 'X' :: rest => Text.digitsValue? 16 rest
  | '0' :: digit :: rest => Text.digitsValue? 8 (digit :: rest)
  | digits => Text.digitsValue? 10 digits

/-- The parts of a name between its points; one point at the end makes no part. -/
def parts (name : List Char) : List (List Char) :=
  let found := name.splitOn '.'
  if 1 < found.length ∧ found.getLast? = some [] then found.dropLast else found

/-- Whether a name has to be an IPv4 address, because its last part is a number. -/
def endsInNumber (name : List Char) : Bool :=
  match (parts name).getLast? with
  | none | some [] => false
  | some part =>
    part.all Char.isDigit ||
      (part.take 2 == ['0', 'x'] || part.take 2 == ['0', 'X']) && (ipv4Part? part).isSome

/-- The address with these parts, the last of which fills the bytes that are left. -/
def ipv4OfParts? (numbers : List Nat) : Option Nat :=
  match numbers.reverse with
  | [] => none
  | last :: others =>
    if 3 < others.length ∨ others.any (255 < ·) ∨ Nat.pow 256 (4 - others.length) ≤ last then none
    else
      some (others.zipIdx.foldl
        (fun sum (part, index) => sum + part * Nat.pow 256 (4 - others.length + index)) last)

/-- The IPv4 address that a name is. -/
def ipv4? (name : List Char) : Option Host := do
  return .ipv4 (← ipv4OfParts? (← (parts name).mapM ipv4Part?))

/-- A group of an IPv6 address. -/
def ipv6Group? (digits : List Char) : Option Nat :=
  if digits = [] ∨ 4 < digits.length then none else Text.digitsValue? 16 digits

/-- A byte of the IPv4 address at the end of an IPv6 one. -/
def ipv6Byte? (digits : List Char) : Option Nat := do
  if digits = [] ∨ 3 < digits.length ∨ (digits.head? = some '0' ∧ 1 < digits.length) then none
  else
    let value ← Text.digitsValue? 10 digits
    if value ≤ 255 then some value else none

/-- The groups between colons; the last of all may be an IPv4 address, which makes two. -/
def ipv6Groups? (last : Bool) (characters : List Char) : Option (List Nat) :=
  if characters = [] then some []
  else
    let pieces := characters.splitOn ':'
    match last, pieces.getLast? with
    | true, some final =>
      if final.contains '.' then do
        match ← (final.splitOn '.').mapM ipv6Byte? with
        | [first, second, third, fourth] =>
          return (← pieces.dropLast.mapM ipv6Group?) ++ [first * 256 + second, third * 256 + fourth]
        | _ => none
      else pieces.mapM ipv6Group?
    | _, _ => pieces.mapM ipv6Group?

/-- The characters before and after the first `::`. -/
def splitGap : List Char → Option (List Char × List Char)
  | [] | [_] => none
  | ':' :: ':' :: rest => some ([], rest)
  | character :: rest => (splitGap rest).map fun (before, after) => (character :: before, after)

/-- The IPv6 address that stands between brackets. -/
def ipv6? (characters : List Char) : Option Host := do
  match splitGap characters with
  | none =>
    let groups ← ipv6Groups? true characters
    if groups.length = 8 then some (.ipv6 groups) else none
  | some (before, after) =>
    let first ← ipv6Groups? false before
    let final ← ipv6Groups? true after
    if first.length + final.length ≤ 7 then
      some (.ipv6 (first ++ List.replicate (8 - first.length - final.length) 0 ++ final))
    else none

/-- Whether a character may not stand in the name of a host. -/
def isForbidden (character : Char) : Bool :=
  character.toNat ≤ 0x20 || character.toNat == 0x7f || "#/:<>?@[\\]^|%".toList.contains character

/-- The host that a text names; escapes stand for their bytes, and case does not count. -/
def ofText? (characters : List Char) : Option Host :=
  match characters with
  | '[' :: rest =>
    if rest.getLast? = some ']' then ipv6? rest.dropLast else none
  | _ => do
    let name ← Bytes.toText? (Percent.decode (Bytes.ofText (String.ofList characters)))
    let letters := name.toList.map Char.toLower
    if letters = [] ∨ letters.any isForbidden then none
    else if endsInNumber letters then ipv4? letters
    else some (.name (String.ofList letters))

end Host

namespace Url

/-- Whether a byte may stand in a path. -/
def isPathSafe (byte : UInt8) : Bool :=
  0x20 < byte && byte < 0x7f && !("\"#<>?\x60\x7b\x7d".toList.contains (Percent.asciiChar byte))

/-- Whether a byte may stand in a query. -/
def isQuerySafe (byte : UInt8) : Bool :=
  0x20 < byte && byte < 0x7f && !("\"#<>'".toList.contains (Percent.asciiChar byte))

/-- Whether a character ends a segment of a path. -/
def isSlash (character : Char) : Bool :=
  character = '/' || character = '\\'

/-- Whether a segment means the directory itself. -/
def isHere (segment : List Char) : Bool :=
  String.ofList (segment.map Char.toLower) ∈ [".", "%2e"]

/-- Whether a segment means the directory above. -/
def isAbove (segment : List Char) : Bool :=
  String.ofList (segment.map Char.toLower) ∈ ["..", ".%2e", "%2e.", "%2e%2e"]

/-- Resolves dot segments; `done` are the segments so far, last first. -/
def resolve (done : List (List Char)) : List (List Char) → List (List Char)
  | [] => done.reverse
  | [segment] =>
    if isAbove segment then (done.drop 1).reverse ++ [[]]
    else if isHere segment then done.reverse ++ [[]]
    else done.reverse ++ [segment]
  | segment :: rest =>
    if isAbove segment then resolve (done.drop 1) rest
    else if isHere segment then resolve done rest
    else resolve (segment :: done) rest

/-- The path that a text stands for, which is empty or begins with a slash. -/
def pathOf (characters : List Char) : String :=
  let segments := (characters.map fun character => if isSlash character then '/' else character)
    |>.drop 1 |>.splitOn '/'
  String.ofList ((resolve [] segments).flatMap fun segment =>
    '/' :: Percent.encode isPathSafe segment)

/-- The port number that a text gives; nothing means the usual one. -/
def portNumber? (secure : Bool) (characters : List Char) : Option Nat :=
  if characters = [] then some (if secure then 443 else 80)
  else do
    let number ← Text.digitsValue? 10 characters
    if number < 65536 then some number else none

/-- The part of an authority after its credentials. -/
def afterCredentials (authority : List Char) : List Char :=
  (authority.reverse.takeWhile (· != '@')).reverse

/-- The parts of an authority before and after the first colon that is not within brackets. -/
def splitColon (bracketed : Bool) : List Char → List Char × List Char
  | [] => ([], [])
  | character :: rest =>
    if character = ':' ∧ ¬ bracketed then ([], rest)
    else
      let within := character = '[' || (bracketed && character != ']')
      let (before, after) := splitColon within rest
      (character :: before, after)

/-- The URL after its scheme and slashes. -/
def ofRest? (secure : Bool) (characters : List Char) : Option Url := do
  let visible := characters.takeWhile (· != '#')
  let authority := visible.takeWhile fun character => !(isSlash character || character = '?')
  let rest := visible.drop authority.length
  let (hostText, numberText) := splitColon false (afterCredentials authority)
  let host ← Host.ofText? hostText
  let portNumber ← portNumber? secure numberText
  let path := rest.takeWhile (· != '?')
  return {
    secure := secure
    host := host
    portNumber := portNumber
    path := pathOf path
    query :=
      match rest.drop path.length with
      | '?' :: query => some (String.ofList (Percent.encode isQuerySafe query))
      | _ => none }

/-- The URL that a text beginning with `http://` or `https://` is. -/
def ofText? (text : String) : Option Url :=
  let characters := text.toList.filter fun character =>
    !(character = '\t' || character = '\n' || character = '\r')
  match characters with
  | 'h' :: 't' :: 't' :: 'p' :: ':' :: rest => ofRest? false (rest.dropWhile isSlash)
  | 'h' :: 't' :: 't' :: 'p' :: 's' :: ':' :: rest => ofRest? true (rest.dropWhile isSlash)
  | _ => none

/-- Whether a URL leads to the server at an address, which is given as host and port number. -/
def leadsTo (url : Url) (address : String) : Bool :=
  match ofText? ("http://" ++ address) with
  | some server => !url.secure && url.host = server.host && url.portNumber = server.portNumber
  | none => false

/-- The URL with one more field in its query. -/
def withField (url : Url) (key value : String) : Url :=
  let field := key ++ "=" ++ Percent.formValue value
  { url with
    query :=
      match url.query with
      | none | some "" => some field
      | some query => some (query ++ "&" ++ field) }

/-- The path and query that a request names. -/
def target (url : Url) : String :=
  match url.query with
  | none => url.path
  | some query => url.path ++ "?" ++ query

end Url

end ResumableUpload.Http
