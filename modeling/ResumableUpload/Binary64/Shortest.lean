import ResumableUpload.Binary64

/-!
# Decimal text of binary64 numbers

The digits are the fewest that read back as the same number, the nearest to it of those, and the
larger of two equally near.  They are written positionally, never with an exponent; what a whole
number, an infinity and an undefined number look like is the writer's choice (`Layout`).
-/

namespace ResumableUpload.Binary64

/-- Decimal digits of a positive number: it is `digits · 10 ^ exponent`. -/
structure Decimal where
  digits : Nat
  exponent : Int
deriving DecidableEq, Repr

/-- Trailing zeros moved from the digits into the exponent. -/
def Decimal.normalize (decimal : Decimal) : Decimal :=
  let written := Nat.toDigits 10 decimal.digits
  let zeros := (written.reverse.takeWhile (· == '0')).length
  ⟨decimal.digits / Nat.pow 10 zeros, decimal.exponent + zeros⟩

/--
The positive reals that round to one number, as fractions over one denominator: the number itself
and the two ends, which belong to the interval if `closed`.
-/
structure Interval where
  low : Nat
  value : Nat
  high : Nat
  denominator : Nat
  closed : Bool

/--
The interval of `significand · 2 ^ exponent`.  The gap below a power of two is half of the gap above
it, except at the least exponent.
-/
def interval (significand : Nat) (exponent : Int) : Interval :=
  let narrow := significand = Nat.pow 2 52 ∧ leastExponent < exponent
  let (up, down) :=
    match exponent - 2 with
    | .ofNat power => (Nat.pow 2 power, 1)
    | .negSucc power => (1, Nat.pow 2 (power + 1))
  { low := (4 * significand - if narrow then 1 else 2) * up
    value := 4 * significand * up
    high := (4 * significand + 2) * up
    denominator := down
    closed := significand % 2 = 0 }

/-- The neighbour of the value on the grid of multiples of `10 ^ exponent` that is to be written. -/
def Interval.onGrid? (span : Interval) (exponent : Int) : Option Decimal :=
  let (up, down) :=
    match exponent with
    | .ofNat power => (1, Nat.pow 10 power)
    | .negSucc power => (Nat.pow 10 (power + 1), 1)
  let step := span.denominator * down
  let below := span.value * up / step
  let rest := span.value * up % step
  let lowFits :=
    if span.closed then span.low * up ≤ below * step else span.low * up < below * step
  let highFits :=
    if span.closed then (below + 1) * step ≤ span.high * up else (below + 1) * step < span.high * up
  if lowFits ∧ 0 < below ∧ (¬ highFits ∨ 2 * rest < step) then some ⟨below, exponent⟩
  else if highFits then some ⟨below + 1, exponent⟩
  else none

/-- The power of ten of the leading digit of a positive fraction. -/
def leadingPower (numerator denominator : Nat) : Int :=
  if denominator ≤ numerator then
    (Nat.toDigits 10 (numerator / denominator)).length - 1
  else
    let whole := denominator / numerator
    let power := (Nat.toDigits 10 whole).length
    if denominator ≤ numerator * Nat.pow 10 (power - 1) then 1 - power else -power

/-- The fewest digits that read back as `significand · 2 ^ exponent`. -/
def shortest (significand : Nat) (exponent : Int) : Decimal :=
  let span := interval significand exponent
  let leading := leadingPower span.value span.denominator
  let found := (List.range 18).findSome? fun (count : Nat) => span.onGrid? (leading - (count : Int))
  (found.getD ⟨0, 0⟩).normalize

/-- How numbers are written: what follows a whole number, and the texts that are no digits. -/
structure Layout where
  wholeSuffix : String
  notANumber : String
  infinity : String

/-- The positional text of decimal digits. -/
def Decimal.text (decimal : Decimal) (layout : Layout) : String :=
  let digits := Nat.toDigits 10 decimal.digits
  match decimal.exponent with
  | .ofNat power =>
    String.ofList (digits ++ List.replicate (if decimal.digits = 0 then 0 else power) '0') ++
      layout.wholeSuffix
  | .negSucc power =>
    let places := power + 1
    let padded := List.replicate (places + 1 - digits.length) '0' ++ digits
    let whole := padded.length - places
    String.ofList (padded.take whole ++ '.' :: padded.drop whole)

/-- The text of a number. -/
def text (number : Binary64) (layout : Layout) : String :=
  let signed (negative : Bool) (magnitude : String) : String :=
    if negative then "-" ++ magnitude else magnitude
  match number.datum with
  | .notANumber => layout.notANumber
  | .infinite negative => signed negative layout.infinity
  | .finite negative significand exponent =>
    let decimal := if significand = 0 then ⟨0, 0⟩ else shortest significand exponent
    signed negative (decimal.text layout)

/-- Messages write whole numbers without a point. -/
def messageLayout : Layout := ⟨"", "NaN", "inf"⟩

end ResumableUpload.Binary64
