/-!
# Hexadecimal digits

Digits are written in lower case and read in either case.
-/

namespace ResumableUpload.Text

/-- The hexadecimal digit of a value below sixteen, in lower case. -/
def hexDigit (value : Nat) : Char :=
  Char.ofNat (if value < 10 then value + 48 else value + 87)

/-- The value of a hexadecimal digit of either case. -/
def hexValue? (character : Char) : Option Nat :=
  let code := character.toNat
  if 48 ≤ code ∧ code ≤ 57 then some (code - 48)
  else if 97 ≤ code ∧ code ≤ 102 then some (code - 87)
  else if 65 ≤ code ∧ code ≤ 70 then some (code - 55)
  else none

/-- The number that a row of digits of a base up to sixteen stands for. -/
def digitsValue? (base : Nat) (digits : List Char) : Option Nat :=
  digits.foldlM
    (fun value digit => do
      let next ← hexValue? digit
      if next < base then some (value * base + next) else none)
    0

end ResumableUpload.Text
