import ResumableUpload.Binary64.Shortest
import ResumableUpload.Toml.Text

/-!
# Writing TOML

Of the four forms of a string the first is taken that can show it as it is: one line in double
quotes, one line in single quotes, several lines in double quotes, several lines in single quotes.
Where none can, double quotes with escapes are taken.
-/

namespace ResumableUpload.Toml

/-- The longest row of one character. -/
def longestRow (sought : Char) (current : Nat) : List Char → Nat
  | [] => current
  | character :: rest =>
    if character = sought then longestRow sought (current + 1) rest
    else max current (longestRow sought 0 rest)

/-- Whether a character can only be shown by an escape, also where line ends can stand. -/
def isHidden (character : Char) : Bool :=
  !isPlain character && character ≠ '\n'

/-- The escape of a character, in upper case. -/
def escape (character : Char) : List Char :=
  match character with
  | '\x08' => ['\\', 'b']
  | '\t' => ['\\', 't']
  | '\n' => ['\\', 'n']
  | '\x0c' => ['\\', 'f']
  | '\r' => ['\\', 'r']
  | '"' => ['\\', '"']
  | '\\' => ['\\', '\\']
  | _ =>
    let code := character.toNat
    ['\\', 'u', '0', '0', (Text.hexDigit (code / 16)).toUpper, (Text.hexDigit (code % 16)).toUpper]

/--
The text between double quotes.  Line ends stand as they are if `overLines`, and so do up to two
quotes in a row, `row` being their number so far.
-/
def escaped (overLines : Bool) (row : Nat) : List Char → List Char
  | [] => []
  | character :: rest =>
    if character = '"' ∧ overLines ∧ row < 2 then '"' :: escaped overLines (row + 1) rest
    else if (character = '\n' ∧ overLines) ∨
        (isPlain character ∧ character ≠ '"' ∧ character ≠ '\\' ∧ character ≠ '\t') then
      character :: escaped overLines 0 rest
    else escape character ++ escaped overLines 0 rest

/-- A string in the first form that can show it. -/
def writtenString (text : String) : String :=
  let characters := text.toList
  let hidden := characters.any isHidden
  let slashed := characters.contains '\\'
  let lined := characters.contains '\n'
  let opening (quotes : List Char) : List Char := if lined then quotes ++ ['\n'] else quotes
  let quoted := '"' :: (escaped false 0 characters ++ ['"'])
  let quotedLines := opening ['"', '"', '"'] ++ escaped true 0 characters ++ ['"', '"', '"']
  let literal := '\'' :: (characters ++ ['\''])
  let literalLines := opening ['\'', '\'', '\''] ++ characters ++ ['\'', '\'', '\'']
  String.ofList <|
    if !hidden && !slashed && !lined && longestRow '"' 0 characters = 0 then quoted
    else if !hidden && !lined && longestRow '\'' 0 characters = 0 then literal
    else if !hidden && !slashed && longestRow '"' 0 characters ≤ 2 then quotedLines
    else if !hidden && longestRow '\'' 0 characters ≤ 2 then literalLines
    else if lined then quotedLines
    else quoted

/-- Whole numbers have a point, so that they read back as floats. -/
def floatLayout : Binary64.Layout := ⟨".0", "nan", "inf"⟩

/-- An array of written elements, with more than one of them each on a line of its own. -/
def writtenArray : List String → String
  | [] => "[]"
  | [element] => "[" ++ element ++ "]"
  | elements =>
    "[\n" ++ String.join (elements.map fun element => "    " ++ element ++ ",\n") ++ "]"

/-- A line that gives a key its written value. -/
def writtenLine (key value : String) : String :=
  key ++ " = " ++ value ++ "\n"

end ResumableUpload.Toml
