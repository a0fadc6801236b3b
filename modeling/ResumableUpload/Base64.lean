import ResumableUpload.Bytes

/-!
# Chunk text

A chunk travels as base64 text over the standard alphabet, padded with `=` to groups of four
letters.  Reading is strict: the padding is required, and the bits that a padded group leaves over
must be zero, so that every byte sequence has one text only.
-/

namespace ResumableUpload.Base64

/-- The letter for a six-bit value. -/
def letter (value : Nat) : Char :=
  if value < 26 then Char.ofNat (value + 65)
  else if value < 52 then Char.ofNat (value + 71)
  else if value < 62 then Char.ofNat (value - 4)
  else if value = 62 then '+'
  else '/'

/-- The six-bit value of a letter. -/
def value? (character : Char) : Option Nat :=
  let code := character.toNat
  if 65 ≤ code ∧ code ≤ 90 then some (code - 65)
  else if 97 ≤ code ∧ code ≤ 122 then some (code - 71)
  else if 48 ≤ code ∧ code ≤ 57 then some (code + 4)
  else if character = '+' then some 62
  else if character = '/' then some 63
  else none

/-- The letters of a byte sequence, three bytes to four letters. -/
def letters : Bytes → List Char
  | [] => []
  | [first] =>
    [letter (first.toNat / 4), letter (first.toNat % 4 * 16), '=', '=']
  | [first, second] =>
    [letter (first.toNat / 4), letter (first.toNat % 4 * 16 + second.toNat / 16),
      letter (second.toNat % 16 * 4), '=']
  | first :: second :: third :: rest =>
    letter (first.toNat / 4) :: letter (first.toNat % 4 * 16 + second.toNat / 16) ::
      letter (second.toNat % 16 * 4 + third.toNat / 64) :: letter (third.toNat % 64) ::
      letters rest

/-- The bytes that a list of letters stands for; `none` if it is not the text of any. -/
def ofLetters? : List Char → Option Bytes
  | [] => some []
  | [first, second, '=', '='] => do
    let high ← value? first
    let low ← value? second
    if low % 16 = 0 then some [UInt8.ofNat (high * 4 + low / 16)] else none
  | [first, second, third, '='] => do
    let high ← value? first
    let middle ← value? second
    let low ← value? third
    if low % 4 = 0 then
      some [UInt8.ofNat (high * 4 + middle / 16), UInt8.ofNat (middle % 16 * 16 + low / 4)]
    else none
  | first :: second :: third :: fourth :: rest => do
    let one ← value? first
    let two ← value? second
    let three ← value? third
    let four ← value? fourth
    let tail ← ofLetters? rest
    some (UInt8.ofNat (one * 4 + two / 16) :: UInt8.ofNat (two % 16 * 16 + three / 4) ::
      UInt8.ofNat (three % 4 * 64 + four) :: tail)
  | _ => none

/-- The text of a chunk. -/
def encode (bytes : Bytes) : String :=
  String.ofList (letters bytes)

/-- The chunk that a text stands for. -/
def decode? (text : String) : Option Bytes :=
  ofLetters? text.toList

end ResumableUpload.Base64
