import ResumableUpload.Text.Hexadecimal

/-!
# TOML strings

There are four forms of a string: in double quotes with escapes, in single quotes without, and both
of them with tripled quotes over several lines.  All readers here begin after the opening quotes and
return what follows the closing ones.
-/

namespace ResumableUpload.Toml

/-- Whether a character is a blank within a line. -/
def isBlank (character : Char) : Bool :=
  character = ' ' || character = '\t'

/-- Whether a character may stand in a line as itself: no control character except the tab. -/
def isPlain (character : Char) : Bool :=
  character = '\t' || (0x20 ≤ character.toNat && character.toNat ≠ 0x7f)

/-- The character that a letter after a backslash stands for. -/
def simpleEscape? : Char → Option Char
  | '"' => some '"'
  | '\\' => some '\\'
  | 'b' => some '\x08'
  | 'f' => some '\x0c'
  | 'n' => some '\n'
  | 'r' => some '\r'
  | 't' => some '\t'
  | _ => none

/-- The character whose number is written in hexadecimal digits. -/
def numberedChar? (digits : List Char) : Option Char := do
  let code ← Text.digitsValue? 16 digits
  if code.isValidChar then some (Char.ofNat code) else none

/-- Puts a character in front of a text that was read. -/
def prepend (character : Char) (read : List Char × List Char) : List Char × List Char :=
  (character :: read.1, read.2)

/-- A string in double quotes. -/
def readQuoted : List Char → Option (List Char × List Char)
  | [] => none
  | '"' :: rest => some ([], rest)
  | '\\' :: 'u' :: one :: two :: three :: four :: rest => do
    return prepend (← numberedChar? [one, two, three, four]) (← readQuoted rest)
  | '\\' :: 'U' :: one :: two :: three :: four :: five :: six :: seven :: eight :: rest => do
    return prepend (← numberedChar? [one, two, three, four, five, six, seven, eight])
      (← readQuoted rest)
  | '\\' :: letter :: rest => do
    return prepend (← simpleEscape? letter) (← readQuoted rest)
  | character :: rest =>
    if isPlain character then (readQuoted rest).map (prepend character) else none

/-- A string in single quotes. -/
def readLiteral : List Char → Option (List Char × List Char)
  | [] => none
  | '\'' :: rest => some ([], rest)
  | character :: rest =>
    if isPlain character then (readLiteral rest).map (prepend character) else none

/-- The input after a line end, if it begins with one. -/
def afterLineEnd? : List Char → Option (List Char)
  | '\n' :: rest => some rest
  | '\r' :: '\n' :: rest => some rest
  | _ => none

/-- The input after a line end that may be missing. -/
def skipLineEnd (input : List Char) : List Char :=
  (afterLineEnd? input).getD input

/-- After three closing quotes: up to two quotes before them belong to the text. -/
def closeLines (quote : Char) (rest : List Char) : Option (List Char × List Char) :=
  let more := (rest.takeWhile (· == quote)).length
  if more ≤ 2 then some (List.replicate more quote, rest.drop more) else none

/--
A string over several lines in tripled double quotes.  A backslash at the end of a line takes all
blanks and line ends after it away; `skipping` is true while they come.
-/
def readQuotedLines (skipping : Bool) : List Char → Option (List Char × List Char)
  | [] => none
  | '"' :: '"' :: '"' :: rest => closeLines '"' rest
  | '\\' :: 'u' :: one :: two :: three :: four :: rest => do
    return prepend (← numberedChar? [one, two, three, four]) (← readQuotedLines false rest)
  | '\\' :: 'U' :: one :: two :: three :: four :: five :: six :: seven :: eight :: rest => do
    return prepend (← numberedChar? [one, two, three, four, five, six, seven, eight])
      (← readQuotedLines false rest)
  | '\\' :: letter :: rest =>
    if (afterLineEnd? ((letter :: rest).dropWhile isBlank)).isSome then
      readQuotedLines true (letter :: rest)
    else do return prepend (← simpleEscape? letter) (← readQuotedLines false rest)
  | '\r' :: '\n' :: rest =>
    if skipping then readQuotedLines true rest
    else (readQuotedLines false rest).map (prepend '\n')
  | character :: rest =>
    if skipping && (isBlank character || character = '\n') then readQuotedLines true rest
    else if isPlain character || character = '\n' then
      (readQuotedLines false rest).map (prepend character)
    else none

/-- A string over several lines in tripled single quotes. -/
def readLiteralLines : List Char → Option (List Char × List Char)
  | [] => none
  | '\'' :: '\'' :: '\'' :: rest => closeLines '\'' rest
  | '\r' :: '\n' :: rest => (readLiteralLines rest).map (prepend '\n')
  | character :: rest =>
    if isPlain character || character = '\n' then
      (readLiteralLines rest).map (prepend character)
    else none

/-- A string of any form, with the input after it. -/
def readString? : List Char → Option (String × List Char)
  | '"' :: '"' :: '"' :: rest => finish (readQuotedLines false (skipLineEnd rest))
  | '\'' :: '\'' :: '\'' :: rest => finish (readLiteralLines (skipLineEnd rest))
  | '"' :: rest => finish (readQuoted rest)
  | '\'' :: rest => finish (readLiteral rest)
  | _ => none
where
  /-- Makes a text of the characters. -/
  finish (read : Option (List Char × List Char)) : Option (String × List Char) :=
    read.map fun (characters, rest) => (String.ofList characters, rest)

end ResumableUpload.Toml
