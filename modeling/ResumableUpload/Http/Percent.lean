import ResumableUpload.Bytes
import ResumableUpload.Text.Hexadecimal

/-!
# Percent encoding

Inside a URL a byte can be written as `%` and two hexadecimal digits.  Which bytes have to be is up
to the part of the URL (`encode`).  A form value writes blanks as `+` and keeps letters, digits and
`* - . _` (`formValue`).
-/

namespace ResumableUpload.Http.Percent

/-- The character of an ASCII byte. -/
def asciiChar (byte : UInt8) : Char :=
  Char.ofNat byte.toNat

/-- The escape of a byte, in upper case. -/
def escape (byte : UInt8) : List Char :=
  ['%', (Text.hexDigit (byte.toNat / 16)).toUpper, (Text.hexDigit (byte.toNat % 16)).toUpper]

/-- A text with the bytes escaped that are not to be kept. -/
def encode (keeps : UInt8 → Bool) (characters : List Char) : List Char :=
  (Bytes.ofText (String.ofList characters)).flatMap fun byte =>
    if keeps byte then [asciiChar byte] else escape byte

/-- The bytes that a text with escapes stands for; a `%` that begins no escape stands for itself. -/
def decode : Bytes → Bytes
  | [] => []
  | [byte] => [byte]
  | [first, second] => [first, second]
  | byte :: first :: second :: rest =>
    match byte == 0x25, Text.hexValue? (asciiChar first), Text.hexValue? (asciiChar second) with
    | true, some high, some low => UInt8.ofNat (high * 16 + low) :: decode rest
    | _, _, _ => byte :: decode (first :: second :: rest)

/-- Whether a form value keeps a byte. -/
def isFormSafe (byte : UInt8) : Bool :=
  (asciiChar byte).isAlphanum || byte == 0x2a || byte == 0x2d || byte == 0x2e || byte == 0x5f

/-- A text as the value of a form. -/
def formValue (text : String) : String :=
  String.ofList ((Bytes.ofText text).flatMap fun byte =>
    if byte == 0x20 then ['+'] else if isFormSafe byte then [asciiChar byte] else escape byte)

end ResumableUpload.Http.Percent
