import ResumableUpload.Binary64

/-!
# Numbers in JSON text

A number is kept as it is written: sign, digits before and after the point, exponent.  It can be
taken as a natural number, if it is written as one, or as a binary64 number.  The latter collects
leading digits as long as they fit into sixty-four bits and scales them by a power of ten, so that
it rounds once for the digits and once for the scaling.
-/

namespace ResumableUpload.Json

/-- A number as it is written. -/
structure Number where
  negative : Bool := false
  whole : List Char
  fraction : Option (List Char) := none
  /-- Whether the exponent is negative, and its digits. -/
  exponent : Option (Bool × List Char) := none
deriving DecidableEq, Repr

/-- The value of a decimal digit. -/
def digitValue (character : Char) : Nat :=
  character.toNat - 48

/-- The value of a row of decimal digits. -/
def digitsValue (digits : List Char) : Nat :=
  digits.foldl (fun value digit => value * 10 + digitValue digit) 0

/-- The largest number of sixty-four bits. -/
def largestWord : Nat := Nat.pow 2 64 - 1

namespace Number

/-- A natural number, written without leading zeros. -/
def ofNat (value : Nat) : Number where
  whole := Nat.toDigits 10 value

/-- The natural number that is written, if it is written as one and is at most `limit`. -/
def toNat? (number : Number) (limit : Nat) : Option Nat :=
  if number.negative || number.fraction.isSome || number.exponent.isSome then none
  else
    let value := digitsValue number.whole
    if value ≤ limit then some value else none

/-- Appends digits to a value as long as it fits into a word; returns the digits left over. -/
def gather (value : Nat) : List Char → Nat × List Char
  | [] => (value, [])
  | digit :: rest =>
    let extended := value * 10 + digitValue digit
    if extended ≤ largestWord then gather extended rest else (value, digit :: rest)

/-- The power of ten with this exponent. -/
def powerOfTen (exponent : Nat) : Binary64 :=
  Binary64.ofDecimal false 1 exponent

/--
A number times a power of ten, in steps of at most `10 ^ 308`; `none` if it grows past the largest
finite number.
-/
def scale (number : Binary64) (exponent : Int) : (steps : Nat) → Option Binary64
  | 0 => some (Binary64.ofMagnitude false 0)
  | steps + 1 =>
    if exponent.natAbs ≤ 308 then
      match exponent with
      | .ofNat power =>
        let scaled := number.mul (powerOfTen power)
        if scaled.isInfinite then none else some scaled
      | .negSucc power => some (number.div (powerOfTen (power + 1)))
    else if number.bits = 0 then some number
    else if 0 ≤ exponent then none
    else scale (number.div (powerOfTen 308)) (exponent + 308) steps

/-- The largest exponent that is added up; one beyond it counts as endless. -/
def largestExponent : Nat := Nat.pow 2 31 - 1

/-- The written exponent applied to one that the digits have already. -/
def withExponent (number : Number) (significand : Nat) (exponent : Int) : Option Binary64 :=
  match number.exponent with
  | none => scale (.ofNat significand) exponent 8
  | some (negative, digits) =>
    let written := digitsValue digits
    if largestExponent < written then
      if significand ≠ 0 ∧ ¬ negative then none else some (Binary64.ofMagnitude false 0)
    else
      scale (.ofNat significand) (if negative then exponent - written else exponent + written) 8

/-- The binary64 number that is written; `none` if it is past the largest finite one. -/
def toBinary64? (number : Number) : Option Binary64 :=
  let (significand, left) := gather 0 number.whole
  let magnitude :=
    match number.fraction with
    | none => number.withExponent significand left.length
    | some fraction =>
      let (significand, ignored) := gather significand fraction
      let taken : Nat := fraction.length - ignored.length
      number.withExponent significand ((left.length : Int) - taken)
  magnitude.map fun value => if number.negative then value.negate else value

end Number

end ResumableUpload.Json
