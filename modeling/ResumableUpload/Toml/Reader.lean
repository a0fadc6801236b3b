import ResumableUpload.Toml.Scalar
import ResumableUpload.Toml.Text

/-!
# Reading TOML documents

A document is a row of lines: a key with its value, the header of a table, or nothing.  Values may
go over several lines within brackets.  Blanks and comments may stand between the parts.
-/

namespace ResumableUpload.Toml

/-- The input after its leading blanks. -/
def skipBlanks (input : List Char) : List Char :=
  input.dropWhile isBlank

/-- The input after leading blanks, line ends and comments; `commented` is true within a comment. -/
def skipVoid (commented : Bool) : List Char → List Char
  | [] => []
  | '\n' :: rest => skipVoid false rest
  | '\r' :: '\n' :: rest => skipVoid false rest
  | character :: rest =>
    if commented then
      if isPlain character then skipVoid true rest else character :: rest
    else if character = '#' then skipVoid true rest
    else if isBlank character then skipVoid false rest
    else character :: rest

/-- The input after the end of a line, before which a comment may stand. -/
def afterLine? (input : List Char) : Option (List Char) :=
  let rest :=
    match skipBlanks input with
    | '#' :: comment => comment.dropWhile isPlain
    | rest => rest
  if rest = [] then some [] else afterLineEnd? rest

/-- Whether a character may stand in a key without quotes. -/
def isBareKeyPart (character : Char) : Bool :=
  character.isAlphanum || character = '_' || character = '-'

/-- One part of a key, with the input after it. -/
def readKeyPart? (input : List Char) : Option (String × List Char) :=
  match input with
  | '"' :: rest => (readQuoted rest).map fun (key, rest) => (String.ofList key, rest)
  | '\'' :: rest => (readLiteral rest).map fun (key, rest) => (String.ofList key, rest)
  | _ =>
    match input.takeWhile isBareKeyPart with
    | [] => none
    | key => some (String.ofList key, input.drop key.length)

/--
The parts of a dotted key, with the input after it and its blanks; `fuel` bounds their number.
-/
def readKey? : (fuel : Nat) → List Char → Option (List String × List Char)
  | 0, _ => none
  | fuel + 1, input => do
    let (part, rest) ← readKeyPart? input
    match skipBlanks rest with
    | '.' :: rest => do
      let (parts, rest) ← readKey? fuel (skipBlanks rest)
      return (part :: parts, rest)
    | rest => return ([part], rest)

/-- A dotted key and what stands after it. -/
def readPath? (input : List Char) : Option (List String × String × List Char) := do
  let (parts, rest) ← readKey? (input.length + 1) input
  return (parts.dropLast, ← parts.getLast?, rest)

mutual

/-- A value, with the input after it; `fuel` bounds the depth and length of what is read. -/
def readValue : (fuel : Nat) → List Char → Option (Value × List Char)
  | 0, _ => none
  | fuel + 1, input =>
    match input with
    | '[' :: rest =>
      match skipVoid false rest with
      | ']' :: rest => some (.array [], rest)
      | rest => do
        let (elements, rest) ← readElements fuel rest
        return (.array elements, rest)
    | '\x7b' :: rest =>
      match skipBlanks rest with
      | '\x7d' :: rest => some (.table .inline [], rest)
      | rest => do
        let (members, rest) ← readInline fuel [] rest
        return (.table .inline members, rest)
    | _ =>
      match readString? input with
      | some (text, rest) => some (.string text, rest)
      | none => readScalar? input

/-- At least one element, up to the closing bracket; a comma may stand behind the last. -/
def readElements : (fuel : Nat) → List Char → Option (List Value × List Char)
  | 0, _ => none
  | fuel + 1, input => do
    let (element, rest) ← readValue fuel input
    match skipVoid false rest with
    | ']' :: rest => return ([element], rest)
    | ',' :: rest =>
      match skipVoid false rest with
      | ']' :: rest => return ([element], rest)
      | rest => do
        let (elements, rest) ← readElements fuel rest
        return (element :: elements, rest)
    | _ => none

/-- At least one member of an inline table beside those read before, up to the closing brace. -/
def readInline : (fuel : Nat) → Members → List Char → Option (Members × List Char)
  | 0, _, _ => none
  | fuel + 1, members, input => do
    let (path, key, rest) ← readPath? input
    match rest with
    | '=' :: rest => do
      let (value, rest) ← readValue fuel (skipBlanks rest)
      let members ← Members.assign key value path members
      match skipBlanks rest with
      | '\x7d' :: rest => return (members, rest)
      | ',' :: rest => readInline fuel members (skipBlanks rest)
      | _ => none
    | _ => none

end

/-- Reads one line: the members of the document and the path of the table that lines add to. -/
def readLine? (root : Members) (table : List String) (input : List Char) :
    Option (Members × List String × List Char) :=
  match skipBlanks input with
  | '[' :: '[' :: rest => do
    let (path, key, rest) ← readPath? (skipBlanks rest)
    match rest with
    | ']' :: ']' :: rest =>
      return (← root.within (Members.openRow key) path, path ++ [key], ← afterLine? rest)
    | _ => none
  | '[' :: rest => do
    let (path, key, rest) ← readPath? (skipBlanks rest)
    match rest with
    | ']' :: rest =>
      return (← root.within (Members.openTable key) path, path ++ [key], ← afterLine? rest)
    | _ => none
  | rest =>
    match afterLine? rest with
    | some rest => some (root, table, rest)
    | none => do
      let (path, key, rest) ← readPath? rest
      match rest with
      | '=' :: rest => do
        let rest := skipBlanks rest
        let (value, rest) ← readValue (rest.length + 1) rest
        return (← root.within (Members.assign key value path) table, table, ← afterLine? rest)
      | _ => none

/-- Reads lines up to the end; `fuel` bounds their number. -/
def readLines? : (fuel : Nat) → Members → List String → List Char → Option Members
  | 0, _, _, _ => none
  | _ + 1, root, _, [] => some root
  | fuel + 1, root, table, input => do
    let (root, table, rest) ← readLine? root table input
    readLines? fuel root table rest

/-- The table that a text is; a byte order mark may stand in front of it. -/
def parse? (text : String) : Option Value :=
  let input :=
    match text.toList with
    | '\ufeff' :: rest => rest
    | input => input
  (readLines? (input.length + 1) [] [] input).map (.table .header)

end ResumableUpload.Toml
