import ResumableUpload.Json.Value
import ResumableUpload.Text.Hexadecimal

/-!
# JSON text

Values are written without blanks.  In a string quotes, backslashes and control characters are
escaped, with a letter where there is one; nothing else is.
-/

namespace ResumableUpload.Json

/-- One character as it stands in a string. -/
def escapedChar (character : Char) : List Char :=
  if character = '"' then ['\\', '"']
  else if character = '\\' then ['\\', '\\']
  else if character = '\x08' then ['\\', 'b']
  else if character = '\x0c' then ['\\', 'f']
  else if character = '\n' then ['\\', 'n']
  else if character = '\r' then ['\\', 'r']
  else if character = '\t' then ['\\', 't']
  else if character.toNat < 32 then
    ['\\', 'u', '0', '0', Text.hexDigit (character.toNat / 16),
      Text.hexDigit (character.toNat % 16)]
  else [character]

/-- A string with its quotes. -/
def writtenString (text : List Char) : List Char :=
  '"' :: (text.flatMap escapedChar ++ ['"'])

/-- A number as it is written. -/
def writtenNumber (number : Number) : List Char :=
  (if number.negative then ['-'] else []) ++ number.whole ++
    (match number.fraction with
      | some digits => '.' :: digits
      | none => []) ++
    match number.exponent with
    | some (negative, digits) => 'e' :: ((if negative then ['-'] else []) ++ digits)
    | none => []

mutual

/-- The text of a value. -/
def written : Value → List Char
  | .null => ['n', 'u', 'l', 'l']
  | .bool true => ['t', 'r', 'u', 'e']
  | .bool false => ['f', 'a', 'l', 's', 'e']
  | .number number => writtenNumber number
  | .string text => writtenString (text.getD "").toList
  | .array elements => '[' :: writtenElements elements
  | .object members => '\x7b' :: writtenMembers members

/-- The text of elements after the opening bracket. -/
def writtenElements : List Value → List Char
  | [] => [']']
  | [element] => written element ++ [']']
  | element :: rest => written element ++ ',' :: writtenElements rest

/-- The text of members after the opening brace. -/
def writtenMembers : List (Option String × Value) → List Char
  | [] => ['\x7d']
  | [(key, value)] =>
    writtenString (key.getD "").toList ++ ':' :: (written value ++ ['\x7d'])
  | (key, value) :: rest =>
    writtenString (key.getD "").toList ++ ':' :: (written value ++ ',' :: writtenMembers rest)

end

/-- The text of a value. -/
def Value.render (value : Value) : String :=
  String.ofList (written value)

end ResumableUpload.Json
