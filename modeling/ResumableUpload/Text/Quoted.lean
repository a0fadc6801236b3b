import ResumableUpload.Text.Unprinted

/-!
# Quoted text

A text inside a message is put in double quotes.  Quotes, backslashes, tabs, line ends and the null
character are written as two characters; other characters that would not show are written by number.
-/

namespace ResumableUpload.Text

/-- One character as it stands between quotes. -/
def quotedChar (character : Char) : List Char :=
  if character = '"' then ['\\', '"']
  else if character = '\\' then ['\\', '\\']
  else if character = '\x00' then ['\\', '0']
  else if character = '\t' then ['\\', 't']
  else if character = '\n' then ['\\', 'n']
  else if character = '\r' then ['\\', 'r']
  else if ' ' ≤ character ∧ character ≤ '~' then [character]
  else if isUnprinted character then
    ['\\', 'u', '\x7b'] ++ Nat.toDigits 16 character.toNat ++ ['\x7d']
  else [character]

/-- A text between quotes. -/
def quoted (text : String) : String :=
  String.ofList ('"' :: (text.toList.flatMap quotedChar ++ ['"']))

end ResumableUpload.Text
