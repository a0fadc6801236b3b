/-!
# Binary64 numbers

A ratio is an IEEE 754 binary64 number.  It is kept as its bit pattern and read through
`Binary64.datum`: not a number, an infinity, or a sign with `significand · 2 ^ exponent`.
Arithmetic is exact on the data and rounds once at the end, to the nearest representable number and
to the even one of two equally near (`ofRatio`).
-/

namespace ResumableUpload

/-- A binary64 number, given by its bits. -/
structure Binary64 where
  bits : UInt64
deriving DecidableEq, Repr, Inhabited

namespace Binary64

/-- What the bits of a number stand for. -/
inductive Datum where
  | notANumber
  | infinite (negative : Bool)
  | finite (negative : Bool) (significand : Nat) (exponent : Int)
deriving DecidableEq, Repr

/-- The smallest exponent of two that a finite number is written with. -/
def leastExponent : Int := -1074

/-- The meaning of the bits: one sign bit, eleven exponent bits, fifty-two fraction bits. -/
def datum (number : Binary64) : Datum :=
  let word := number.bits.toNat
  let negative : Bool := Nat.pow 2 63 ≤ word
  let field : Nat := word / Nat.pow 2 52 % Nat.pow 2 11
  let fraction : Nat := word % Nat.pow 2 52
  if field = 2047 then
    if fraction = 0 then .infinite negative else .notANumber
  else if field = 0 then .finite negative fraction leastExponent
  else .finite negative (fraction + Nat.pow 2 52) ((field : Int) - 1075)

/-- The number with this sign whose other bits, read as a number, are `magnitude`. -/
def ofMagnitude (negative : Bool) (magnitude : Nat) : Binary64 :=
  ⟨UInt64.ofNat (magnitude + if negative then Nat.pow 2 63 else 0)⟩

/-- An infinity. -/
def infinity (negative : Bool) : Binary64 :=
  ofMagnitude negative (2047 * Nat.pow 2 52)

/-- The number that stands for an undefined result. -/
def notANumber : Binary64 :=
  ofMagnitude false (2047 * Nat.pow 2 52 + Nat.pow 2 51)

/-- The integer nearest to `numerator / denominator`, the even one of two. -/
def roundToEven (numerator denominator : Nat) : Nat :=
  let quotient := numerator / denominator
  let rest := 2 * (numerator % denominator)
  if rest < denominator ∨ (rest = denominator ∧ quotient % 2 = 0) then quotient else quotient + 1

/-- Multiplies one side of a fraction so that the fraction is divided by `2 ^ exponent`. -/
def dividePower (numerator denominator : Nat) : Int → Nat × Nat
  | .ofNat power => (numerator, denominator * Nat.pow 2 power)
  | .negSucc power => (numerator * Nat.pow 2 (power + 1), denominator)

/--
The number nearest to `numerator / denominator`.  The exponent is the one that leaves fifty-three
bits before the point, but not below the least one; a result past the largest finite number is
infinite.
-/
def ofRatio (negative : Bool) (numerator denominator : Nat) : Binary64 :=
  if numerator = 0 ∨ denominator = 0 then ofMagnitude negative 0
  else
    let guess : Int := (numerator.log2 : Int) - denominator.log2
    let (top, bottom) := dividePower numerator denominator guess
    let leading : Int := if top < bottom then guess - 1 else guess
    let exponent := max (leading - 52) leastExponent
    let (top, bottom) := dividePower numerator denominator exponent
    let magnitude := (exponent - leastExponent).toNat * Nat.pow 2 52 + roundToEven top bottom
    if 2047 * Nat.pow 2 52 ≤ magnitude then infinity negative else ofMagnitude negative magnitude

/-- The number nearest to a natural number. -/
def ofNat (value : Nat) : Binary64 :=
  ofRatio false value 1

/-- The number nearest to an integer. -/
def ofInt (value : Int) : Binary64 :=
  ofRatio (value < 0) value.natAbs 1

/-- The number nearest to `± significand · 2 ^ exponent / divisor`. -/
def ofScaled (negative : Bool) (significand divisor : Nat) : Int → Binary64
  | .ofNat power => ofRatio negative (significand * Nat.pow 2 power) divisor
  | .negSucc power => ofRatio negative significand (divisor * Nat.pow 2 (power + 1))

/-- The product, rounded to nearest. -/
def mul (left right : Binary64) : Binary64 :=
  match left.datum, right.datum with
  | .notANumber, _ | _, .notANumber => notANumber
  | .infinite leftSign, .infinite rightSign => infinity (leftSign != rightSign)
  | .infinite leftSign, .finite rightSign significand _ =>
    if significand = 0 then notANumber else infinity (leftSign != rightSign)
  | .finite leftSign significand _, .infinite rightSign =>
    if significand = 0 then notANumber else infinity (leftSign != rightSign)
  | .finite leftSign left leftExponent, .finite rightSign right rightExponent =>
    ofScaled (leftSign != rightSign) (left * right) 1 (leftExponent + rightExponent)

/-- The quotient by a non-zero finite number, rounded to nearest. -/
def div (left right : Binary64) : Binary64 :=
  match left.datum, right.datum with
  | .notANumber, _ | _, .notANumber => notANumber
  | .infinite _, .infinite _ => notANumber
  | .infinite leftSign, .finite rightSign _ _ => infinity (leftSign != rightSign)
  | .finite leftSign _ _, .infinite rightSign => ofMagnitude (leftSign != rightSign) 0
  | .finite leftSign left leftExponent, .finite rightSign right rightExponent =>
    if right = 0 then
      if left = 0 then notANumber else infinity (leftSign != rightSign)
    else ofScaled (leftSign != rightSign) left right (leftExponent - rightExponent)

/-- The same number with the other sign. -/
def negate (number : Binary64) : Binary64 :=
  ⟨number.bits ^^^ (0x8000000000000000 : UInt64)⟩

/-- Whether the number is an infinity. -/
def isInfinite (number : Binary64) : Bool :=
  match number.datum with
  | .infinite _ => true
  | _ => false

/-- The least integer that is at least `significand · 2 ^ exponent`. -/
def ceilScaled (significand : Nat) : Int → Nat
  | .ofNat power => significand * Nat.pow 2 power
  | .negSucc power => (significand + (Nat.pow 2 (power + 1) - 1)) / Nat.pow 2 (power + 1)

/--
The least natural number that is at least this one, held between zero and the largest number of
sixty-four bits.  An undefined number counts as zero.
-/
def ceilWord (number : Binary64) : Nat :=
  match number.datum with
  | .notANumber => 0
  | .infinite negative => if negative then 0 else Nat.pow 2 64 - 1
  | .finite negative significand exponent =>
    if negative then 0 else min (ceilScaled significand exponent) (Nat.pow 2 64 - 1)

/-- Whether the number is finite and at least one. -/
def isFiniteFromOne (number : Binary64) : Bool :=
  match number.datum with
  | .finite false significand (.ofNat power) => 1 ≤ significand * Nat.pow 2 power
  | .finite false significand (.negSucc power) => Nat.pow 2 (power + 1) ≤ significand
  | _ => false

/-- Whether the number lies strictly between zero and one. -/
def isBelowOne (number : Binary64) : Bool :=
  match number.datum with
  | .finite false significand (.negSucc power) =>
    0 < significand && significand < Nat.pow 2 (power + 1)
  | _ => false

/--
The number nearest to `± digits · 10 ^ exponent`.  Exponents so large or so small that every such
number is infinite or zero are not computed with.
-/
def ofDecimal (negative : Bool) (digits : Nat) (exponent : Int) : Binary64 :=
  if digits = 0 then ofMagnitude negative 0
  else
    let leading : Int := exponent + (Nat.toDigits 10 digits).length
    if 400 < leading then infinity negative
    else if leading < -400 then ofMagnitude negative 0
    else
      match exponent with
      | .ofNat power => ofRatio negative (digits * Nat.pow 10 power) 1
      | .negSucc power => ofRatio negative digits (Nat.pow 10 (power + 1))

end Binary64

end ResumableUpload
