import ResumableUpload.Text.Hexadecimal
import ResumableUpload.Toml.Value

/-!
# Numbers, truth values and moments in TOML

An unquoted value is a row of letters, digits and `_ + - . :`, which has to be one of these as a
whole.  A moment is a date, a time of day, or both, of which only the form and the ranges are
checked.
-/

namespace ResumableUpload.Toml

/-- The digits of a number without the underscores that stand between two of them. -/
def digitsOf? (isDigit : Char → Bool) : List Char → Option (List Char)
  | [] => none
  | [digit] => if isDigit digit then some [digit] else none
  | digit :: '_' :: rest =>
    if isDigit digit then (digitsOf? isDigit rest).map (digit :: ·) else none
  | digit :: rest => if isDigit digit then (digitsOf? isDigit rest).map (digit :: ·) else none

/-- The digits of a whole decimal number; a leading zero stands alone. -/
def wholeDigits? (characters : List Char) : Option (List Char) := do
  let digits ← digitsOf? Char.isDigit characters
  if digits.head? = some '0' ∧ 1 < digits.length then none else some digits

/-- An integer of sixty-four bits. -/
def integerOf? (value : Int) : Option Value :=
  if -(Nat.pow 2 63) ≤ value ∧ value < Nat.pow 2 63 then some (.integer value) else none

/-- The integer with these digits in a base. -/
def basedInteger? (base : Nat) (characters : List Char) : Option Value := do
  let digits ← digitsOf? (fun character => (Text.digitsValue? base [character]).isSome) characters
  integerOf? (← Text.digitsValue? base digits)

/-- The sign in front of a number, and the number. -/
def splitSign : List Char → Bool × List Char
  | '-' :: rest => (true, rest)
  | '+' :: rest => (false, rest)
  | characters => (false, characters)

/-- Whether a character begins the exponent of a number. -/
def isExponentMark (character : Char) : Bool :=
  character = 'e' || character = 'E'

/-- The value of a decimal exponent. -/
def exponentOf? (characters : List Char) : Option Int := do
  let (negative, characters) := splitSign characters
  let value ← Text.digitsValue? 10 (← digitsOf? Char.isDigit characters)
  return if negative then -value else value

/--
A decimal number after its sign; a point or an exponent make it a float, which must not be too
large.
-/
def decimalOf? (negative : Bool) (characters : List Char) : Option Value := do
  let mantissa := characters.takeWhile fun character => !isExponentMark character
  let whole ← wholeDigits? (mantissa.takeWhile (· != '.'))
  let fraction ←
    match mantissa.dropWhile (· != '.') with
    | [] => some none
    | _ :: digits => (digitsOf? Char.isDigit digits).map some
  let exponent ←
    match characters.drop mantissa.length with
    | [] => some none
    | _ :: written => (exponentOf? written).map some
  if fraction.isNone ∧ exponent.isNone then
    let value ← Text.digitsValue? 10 whole
    integerOf? (if negative then -value else value)
  else
    let places := fraction.getD []
    let digits ← Text.digitsValue? 10 (whole ++ places)
    let value := Binary64.ofDecimal negative digits (exponent.getD 0 - places.length)
    if value = Binary64.infinity false then none else some (.float value)

/-- A number. -/
def numberOf? (characters : List Char) : Option Value :=
  match characters with
  | '0' :: 'x' :: digits => basedInteger? 16 digits
  | '0' :: 'o' :: digits => basedInteger? 8 digits
  | '0' :: 'b' :: digits => basedInteger? 2 digits
  | _ =>
    match splitSign characters with
    | (negative, ['i', 'n', 'f']) => some (.float (Binary64.infinity negative))
    | (negative, ['n', 'a', 'n']) =>
      some (.float (if negative then Binary64.notANumber.negate else Binary64.notANumber))
    | (negative, digits) => decimalOf? negative digits

/-- The value of exactly so many digits, if it lies between the bounds. -/
def fieldOf? (least greatest width : Nat) (characters : List Char) : Option Nat := do
  let value ← Text.digitsValue? 10 characters
  if characters.length = width ∧ least ≤ value ∧ value ≤ greatest then some value else none

/-- The number of days of a month. -/
def daysOfMonth (year month : Nat) : Nat :=
  if month = 2 then
    if year % 4 = 0 ∧ (year % 100 ≠ 0 ∨ year % 400 = 0) then 29 else 28
  else if month ∈ [4, 6, 9, 11] then 30
  else 31

/-- Whether characters are a date. -/
def isDate (characters : List Char) : Bool :=
  match characters.splitOn '-' with
  | [year, month, day] =>
    match fieldOf? 0 9999 4 year, fieldOf? 1 12 2 month with
    | some year, some month => (fieldOf? 1 (daysOfMonth year month) 2 day).isSome
    | _, _ => false
  | _ => false

/-- Whether characters are a time of day. -/
def isTime (characters : List Char) : Bool :=
  match characters.splitOn ':' with
  | [hour, minute, second] =>
    let whole := second.takeWhile (· != '.')
    (fieldOf? 0 23 2 hour).isSome && (fieldOf? 0 59 2 minute).isSome &&
      (fieldOf? 0 60 2 whole).isSome &&
      match second.drop whole.length with
      | [] => true
      | _ :: fraction => !fraction.isEmpty && fraction.all Char.isDigit
  | _ => false

/-- Whether characters are the distance of a local time from the universal one. -/
def isOffset (characters : List Char) : Bool :=
  match characters with
  | ['Z'] | ['z'] => true
  | sign :: rest =>
    (sign = '+' || sign = '-') &&
      match rest.splitOn ':' with
      | [hour, minute] => (fieldOf? 0 23 2 hour).isSome && (fieldOf? 0 59 2 minute).isSome
      | _ => false
  | [] => false

/-- Whether a character ends a time of day and begins an offset. -/
def isOffsetMark (character : Char) : Bool :=
  character = 'Z' || character = 'z' || character = '+' || character = '-'

/-- Whether characters are a date, a time of day, or a date and a time with or without an offset. -/
def isMoment (characters : List Char) : Bool :=
  if isDate characters || isTime characters then true
  else
    match characters.drop 10 with
    | mark :: rest =>
      let time := rest.takeWhile fun character => !isOffsetMark character
      isDate (characters.take 10) && (mark = 'T' || mark = 't' || mark = ' ') && isTime time &&
        (rest.length = time.length || isOffset (rest.drop time.length))
    | [] => false

/-- The value of an unquoted row of characters. -/
def scalarOf? (characters : List Char) : Option Value :=
  if characters = "true".toList then some (.bool true)
  else if characters = "false".toList then some (.bool false)
  else if isMoment characters then some (.moment (String.ofList characters))
  else numberOf? characters

/-- Whether a character may stand in an unquoted value. -/
def isScalarPart (character : Char) : Bool :=
  character.isAlphanum || "_+-.:".toList.contains character

/-- An unquoted value, with the input after it; one blank may stand between a date and a time. -/
def readScalar? (input : List Char) : Option (Value × List Char) := do
  let first := input.takeWhile isScalarPart
  let rest := input.drop first.length
  match isDate first, rest with
  | true, ' ' :: digit :: more =>
    if digit.isDigit then
      let second := (digit :: more).takeWhile isScalarPart
      return (← scalarOf? (first ++ ' ' :: second), (digit :: more).drop second.length)
    else return (← scalarOf? first, rest)
  | _, _ => return (← scalarOf? first, rest)

end ResumableUpload.Toml
