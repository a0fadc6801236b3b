import ResumableUpload.Json.Value
import ResumableUpload.Text.Hexadecimal

/-!
# Reading JSON text

The reader works on symbols: characters, and bytes that belong to no character.  The latter may only
stand within strings, which then have no text.  Blanks may stand between the parts of a value; after
the value only blanks may follow.
-/

namespace ResumableUpload.Json

/-- A character, or `none` for a byte that belongs to no character. -/
abbrev Symbol := Option Char

/-- Whether a symbol is a blank. -/
def isBlank (symbol : Symbol) : Bool :=
  symbol == some ' ' || symbol == some '\n' || symbol == some '\t' || symbol == some '\r'

/-- The input after its leading blanks. -/
def skipBlanks (input : List Symbol) : List Symbol :=
  input.dropWhile isBlank

/-- The number that four hexadecimal digits stand for. -/
def hexNumber? (first second third fourth : Symbol) : Option Nat := do
  let digits ← [first, second, third, fourth].mapM id
  Text.digitsValue? 16 digits

/-- The character that a letter after a backslash stands for. -/
def simpleEscape? : Char → Option Char
  | '"' => some '"'
  | '\\' => some '\\'
  | '/' => some '/'
  | 'b' => some '\x08'
  | 'f' => some '\x0c'
  | 'n' => some '\n'
  | 'r' => some '\r'
  | 't' => some '\t'
  | _ => none

/-- A part of a string: a character, an escaped number of sixteen bits, or a stray byte. -/
inductive Piece where
  | char (character : Char)
  | unit (value : Nat)
  | stray
deriving DecidableEq, Repr

/-- The pieces of a string after its opening quote, with the input after its closing one. -/
def readPieces : List Symbol → Option (List Piece × List Symbol)
  | [] => none
  | some '"' :: rest => some ([], rest)
  | some '\\' :: some 'u' :: first :: second :: third :: fourth :: rest => do
    let value ← hexNumber? first second third fourth
    let (pieces, rest) ← readPieces rest
    some (.unit value :: pieces, rest)
  | some '\\' :: some letter :: rest => do
    let character ← simpleEscape? letter
    let (pieces, rest) ← readPieces rest
    some (.char character :: pieces, rest)
  | some '\\' :: _ => none
  | some character :: rest =>
    if character.toNat < 32 then none
    else do
      let (pieces, rest) ← readPieces rest
      some (.char character :: pieces, rest)
  | none :: rest => do
    let (pieces, rest) ← readPieces rest
    some (.stray :: pieces, rest)

/-- The characters that pieces stand for; numbers of surrogates must come in pairs. -/
def assemble? : List Piece → Option (List Char)
  | [] => some []
  | .char character :: rest => (assemble? rest).map (character :: ·)
  | .stray :: _ => none
  | .unit value :: rest =>
    if value < 0xD800 ∨ 0xDFFF < value then (assemble? rest).map (Char.ofNat value :: ·)
    else if 0xDC00 ≤ value then none
    else
      match rest with
      | .unit low :: rest =>
        if 0xDC00 ≤ low ∧ low ≤ 0xDFFF then
          (assemble? rest).map
            (Char.ofNat (0x10000 + (value - 0xD800) * 0x400 + (low - 0xDC00)) :: ·)
        else none
      | _ => none

/-- The string after its opening quote. -/
def readString (input : List Symbol) : Option (Option String × List Symbol) := do
  let (pieces, rest) ← readPieces input
  some ((assemble? pieces).map String.ofList, rest)

/-- Whether a symbol is a decimal digit. -/
def isDigit : Symbol → Bool
  | some character => '0' ≤ character && character ≤ '9'
  | none => false

/-- The leading decimal digits, with the input after them. -/
def readDigits (input : List Symbol) : List Char × List Symbol :=
  ((input.takeWhile isDigit).filterMap id, input.dropWhile isDigit)

/-- At least one digit, with the input after them. -/
def readSomeDigits (input : List Symbol) : Option (List Char × List Symbol) :=
  match readDigits input with
  | ([], _) => none
  | found => some found

/-- The digits after a point, if there is one. -/
def readFraction : List Symbol → Option (Option (List Char) × List Symbol)
  | some '.' :: rest => do
    let (digits, rest) ← readSomeDigits rest
    some (some digits, rest)
  | input => some (none, input)

/-- The exponent, if there is one. -/
def readExponent : List Symbol → Option (Option (Bool × List Char) × List Symbol)
  | some letter :: rest =>
    if letter = 'e' ∨ letter = 'E' then
      let (negative, rest) :=
        match rest with
        | some '+' :: rest => (false, rest)
        | some '-' :: rest => (true, rest)
        | rest => (false, rest)
      do
        let (digits, rest) ← readSomeDigits rest
        some (some (negative, digits), rest)
    else some (none, some letter :: rest)
  | input => some (none, input)

/-- A number after its sign; a leading zero stands alone. -/
def readNumber (negative : Bool) (input : List Symbol) : Option (Number × List Symbol) := do
  let (whole, rest) ← readSomeDigits input
  if whole.head? = some '0' ∧ 1 < whole.length then none
  else
    let (fraction, rest) ← readFraction rest
    let (exponent, rest) ← readExponent rest
    some (⟨negative, whole, fraction, exponent⟩, rest)

/-- The input after a word, if it starts with it. -/
def afterWord? (word : List Char) (input : List Symbol) : Option (List Symbol) :=
  if input.take word.length = word.map some then some (input.drop word.length) else none

mutual

/-- A value, with the input after it; `fuel` bounds the depth and length of what is read. -/
def readValue : (fuel : Nat) → List Symbol → Option (Value × List Symbol)
  | 0, _ => none
  | fuel + 1, input =>
    match skipBlanks input with
    | some '"' :: rest => do
      let (text, rest) ← readString rest
      some (.string text, rest)
    | some '[' :: rest =>
      match skipBlanks rest with
      | some ']' :: rest => some (.array [], rest)
      | rest => do
        let (elements, rest) ← readElements fuel rest
        some (.array elements, rest)
    | some '\x7b' :: rest =>
      match skipBlanks rest with
      | some '\x7d' :: rest => some (.object [], rest)
      | rest => do
        let (members, rest) ← readMembers fuel rest
        some (.object members, rest)
    | some '-' :: rest => do
      let (number, rest) ← readNumber true rest
      some (.number number, rest)
    | some 'n' :: rest => (afterWord? ['u', 'l', 'l'] rest).map (.null, ·)
    | some 't' :: rest => (afterWord? ['r', 'u', 'e'] rest).map (.bool true, ·)
    | some 'f' :: rest => (afterWord? ['a', 'l', 's', 'e'] rest).map (.bool false, ·)
    | rest => do
      let (number, rest) ← readNumber false rest
      some (.number number, rest)

/-- At least one element, up to the closing bracket. -/
def readElements : (fuel : Nat) → List Symbol → Option (List Value × List Symbol)
  | 0, _ => none
  | fuel + 1, input => do
    let (element, rest) ← readValue fuel input
    match skipBlanks rest with
    | some ']' :: rest => some ([element], rest)
    | some ',' :: rest => do
      let (elements, rest) ← readElements fuel rest
      some (element :: elements, rest)
    | _ => none

/-- At least one member, up to the closing brace. -/
def readMembers : (fuel : Nat) → List Symbol → Option (List (Option String × Value) × List Symbol)
  | 0, _ => none
  | fuel + 1, input =>
    match skipBlanks input with
    | some '"' :: rest => do
      let (key, rest) ← readString rest
      match skipBlanks rest with
      | some ':' :: rest => do
        let (value, rest) ← readValue fuel rest
        match skipBlanks rest with
        | some '\x7d' :: rest => some ([(key, value)], rest)
        | some ',' :: rest => do
          let (members, rest) ← readMembers fuel rest
          some ((key, value) :: members, rest)
        | _ => none
      | _ => none
    | _ => none

end

/-- The value that the symbols are, with nothing but blanks around it. -/
def ofSymbols? (input : List Symbol) : Option Value := do
  let (value, rest) ← readValue (input.length + 1) input
  if skipBlanks rest = [] then some value else none

/-- The value that a text is. -/
def parse? (text : String) : Option Value :=
  ofSymbols? (text.toList.map some)

/-- Whether a byte continues a character. -/
def isContinuation (byte : UInt8) : Bool :=
  byte.toNat / 64 = 2

/-- The character that the first bytes encode, if they encode one, and how many they are. -/
def leadingChar? : Bytes → Option (Char × Nat)
  | [] => none
  | first :: rest =>
    let lead := first.toNat
    let tail := (rest.takeWhile isContinuation).map fun byte => byte.toNat % 64
    let accept (code least width : Nat) : Option (Char × Nat) :=
      if least ≤ code ∧ code < 0x110000 ∧ ¬ (0xD800 ≤ code ∧ code ≤ 0xDFFF) then
        some (Char.ofNat code, width)
      else none
    if lead < 0x80 then some (Char.ofNat lead, 1)
    else if 0xC0 ≤ lead ∧ lead < 0xE0 then
      match tail with
      | one :: _ => accept (lead % 32 * 64 + one) 0x80 2
      | _ => none
    else if 0xE0 ≤ lead ∧ lead < 0xF0 then
      match tail with
      | one :: two :: _ => accept (lead % 16 * 4096 + one * 64 + two) 0x800 3
      | _ => none
    else if 0xF0 ≤ lead ∧ lead < 0xF8 then
      match tail with
      | one :: two :: three :: _ =>
        accept (lead % 8 * 262144 + one * 4096 + two * 64 + three) 0x10000 4
      | _ => none
    else none

/-- The symbols of a byte sequence; `skip` of the bytes belong to a character already seen. -/
def symbolsFrom : (skip : Nat) → Bytes → List Symbol
  | _, [] => []
  | skip + 1, _ :: rest => symbolsFrom skip rest
  | 0, byte :: rest =>
    match leadingChar? (byte :: rest) with
    | some (character, width) => some character :: symbolsFrom (width - 1) rest
    | none => none :: symbolsFrom 0 rest

/-- The value that a byte sequence is. -/
def parseBytes? (bytes : Bytes) : Option Value :=
  ofSymbols? (symbolsFrom 0 bytes)

end ResumableUpload.Json
