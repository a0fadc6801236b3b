import ResumableUpload.Binary64

/-!
# Positive binary64 numbers

Rounding can only bring a positive number to zero if the number is tiny.  `Binary64.Positive` says
that a number is positive and tells how small its last place may be; the numbers nearest to positive
integers are positive in this sense, and so are their products with numbers that are at least one.
-/

namespace ResumableUpload.Binary64

/-- The significand of a number that is at least one makes up for its exponent. -/
theorem datum_of_isFiniteFromOne
    {ratio : Binary64}
    (fromOne : ratio.isFiniteFromOne = true) :
    ∃ significand exponent,
      ratio.datum = .finite false significand exponent ∧
        0 < significand ∧ 0 ≤ exponent + significand.log2 := by
  unfold isFiniteFromOne at fromOne
  split at fromOne
  case h_1 significand power datum =>
      have above : 0 < significand := Nat.pos_of_mul_pos_right (of_decide_eq_true fromOne)
      exact ⟨significand, .ofNat power, datum, above,
        Int.add_nonneg (Int.natCast_nonneg _) (Int.natCast_nonneg _)⟩
  case h_2 significand power datum =>
      have large : Nat.pow 2 (power + 1) ≤ significand := of_decide_eq_true fromOne
      have above : 0 < significand := Nat.lt_of_lt_of_le (Nat.two_pow_pos _) large
      have wide : power + 1 ≤ significand.log2 := (Nat.le_log2 (Nat.ne_of_gt above)).mpr large
      exact ⟨significand, .negSucc power, datum, above, by omega⟩
  case h_3 => cases fromOne

/-- The number is positive, and its last place is worth `2 ^ -depth` or more. -/
def Positive (depth : Nat) (number : Binary64) : Prop :=
  match number.datum with
  | .notANumber => False
  | .infinite negative => negative = false
  | .finite negative significand exponent =>
    negative = false ∧ 0 < significand ∧ -(depth : Int) ≤ exponent

/-- What the bits of a normal number are read as. -/
theorem datum_ofMagnitude
    {magnitude : Nat}
    (normal : Nat.pow 2 52 ≤ magnitude)
    (finite : magnitude < 2047 * Nat.pow 2 52) :
    (ofMagnitude false magnitude).datum =
      .finite false (magnitude % Nat.pow 2 52 + Nat.pow 2 52)
        ((magnitude / Nat.pow 2 52 : Nat) - 1075) := by
  simp only [Nat.pow_eq, Nat.reducePow] at normal finite ⊢
  have word : (ofMagnitude false magnitude).bits.toNat = magnitude := by
    simp only [ofMagnitude, Bool.false_eq_true, ↓reduceIte, Nat.add_zero, UInt64.toNat_ofNat']
    omega
  have field : magnitude / 4503599627370496 % 2048 = magnitude / 4503599627370496 := by omega
  have signless : ¬ 9223372036854775808 ≤ magnitude := by omega
  have bounded : ¬ magnitude / 4503599627370496 = 2047 := by omega
  have positive : ¬ magnitude / 4503599627370496 = 0 := by omega
  simp only [datum, word, Nat.pow_eq, Nat.reducePow, field, signless, bounded, positive,
    decide_false, ↓reduceIte]

theorem positive_infinity (depth : Nat) : (infinity false).Positive depth := by
  have datum : (infinity false).datum = .infinite false := by decide
  simp only [Positive, datum]

/-- Rounding ends with an infinity, or with a number that is as large as its bits. -/
theorem positive_rounded
    {magnitude depth : Nat}
    (shallow : depth ≤ 1000)
    (large : (1021 - depth) * Nat.pow 2 52 ≤ magnitude) :
    Positive (depth + 54)
      (if 2047 * Nat.pow 2 52 ≤ magnitude then infinity false
        else ofMagnitude false magnitude) := by
  split
  case isTrue => exact positive_infinity _
  case isFalse finite =>
      have normal : Nat.pow 2 52 ≤ magnitude :=
        Nat.le_trans (Nat.le_mul_of_pos_left _ (by omega)) large
      simp only [Positive, datum_ofMagnitude normal (Nat.lt_of_not_le finite)]
      simp only [Nat.pow_eq, Nat.reducePow] at large finite ⊢
      refine ⟨trivial, ?_, ?_⟩ <;> omega

/-- A fraction that is not tiny is rounded to a number that is not. -/
theorem positive_ofRatio
    {numerator denominator depth : Nat}
    (above : 0 < numerator)
    (below : 0 < denominator)
    (shallow : depth ≤ 1000)
    (near : denominator.log2 ≤ numerator.log2 + depth) :
    (ofRatio false numerator denominator).Positive (depth + 54) := by
  have fraction : ¬ (numerator = 0 ∨ denominator = 0) := by omega
  unfold ofRatio
  rw [if_neg fraction]
  dsimp only
  refine positive_rounded shallow ?_
  -- The exponent is at most 53 below the difference of the logarithms.
  refine Nat.le_trans (Nat.mul_le_mul_right _ ?_) (Nat.le_add_right _ _)
  unfold leastExponent
  split <;> omega

theorem positive_ofNat
    {value : Nat}
    (above : 0 < value) :
    (ofNat value).Positive 54 :=
  positive_ofRatio above Nat.one_pos (Nat.zero_le _) (Nat.zero_le _)

theorem positive_ofScaled
    {significand : Nat}
    {exponent : Int}
    (above : 0 < significand)
    (near : -54 ≤ exponent + significand.log2) :
    (ofScaled false significand 1 exponent).Positive 108 := by
  cases exponent with
  | ofNat power =>
      have scaled : 0 < significand * Nat.pow 2 power :=
        Nat.mul_pos above (Nat.two_pow_pos power)
      exact positive_ofRatio scaled Nat.one_pos (by decide) (Nat.zero_le _)
  | negSucc power =>
      have divisor : 0 < 1 * Nat.pow 2 (power + 1) :=
        Nat.mul_pos Nat.one_pos (Nat.two_pow_pos (power + 1))
      have digits : (1 * Nat.pow 2 (power + 1)).log2 = power + 1 := by
        rw [Nat.one_mul]
        exact Nat.log2_two_pow
      refine positive_ofRatio above divisor (by decide) ?_
      rw [digits]
      omega

/-- The product with a number that is at least one is not much smaller. -/
theorem Positive.mul
    {left right : Binary64}
    (positive : left.Positive 54)
    (fromOne : right.isFiniteFromOne = true) :
    (left.mul right).Positive 108 := by
  obtain ⟨significand, exponent, datum, above, large⟩ := datum_of_isFiniteFromOne fromOne
  unfold Positive at positive
  split at positive
  case h_1 => exact positive.elim
  case h_2 negative infinite =>
      subst positive
      simp only [Binary64.mul, infinite, datum, Nat.ne_of_gt above, ↓reduceIte]
      exact positive_infinity _
  case h_3 negative first place finite =>
      obtain ⟨rfl, firstAbove, shallow⟩ := positive
      have product : 0 < first * significand := Nat.mul_pos firstAbove above
      have wider : significand.log2 ≤ (first * significand).log2 :=
        (Nat.le_log2 (Nat.ne_of_gt product)).mpr
          (Nat.le_trans (Nat.log2_self_le (Nat.ne_of_gt above))
            (Nat.le_mul_of_pos_left _ firstAbove))
      simp only [Binary64.mul, finite, datum]
      exact positive_ofScaled product (by omega)

theorem ceilScaled_pos
    {significand : Nat}
    (above : 0 < significand)
    (exponent : Int) :
    0 < ceilScaled significand exponent := by
  cases exponent with
  | ofNat power => exact Nat.mul_pos above (Nat.two_pow_pos power)
  | negSucc power =>
      have unit : 0 < Nat.pow 2 (power + 1) := Nat.two_pow_pos (power + 1)
      refine (Nat.le_div_iff_mul_le unit).mpr ?_
      omega

/-- A positive number is rounded up to one at least. -/
theorem Positive.one_le_ceilWord
    {number : Binary64}
    {depth : Nat}
    (positive : number.Positive depth) :
    1 ≤ number.ceilWord := by
  unfold Positive at positive
  unfold ceilWord
  cases datum : number.datum with
  | notANumber =>
      rw [datum] at positive
      exact positive.elim
  | infinite negative =>
      rw [datum] at positive
      subst positive
      decide
  | finite negative significand exponent =>
      rw [datum] at positive
      obtain ⟨rfl, above, _⟩ := positive
      have word : 1 ≤ Nat.pow 2 64 - 1 := by decide
      exact Nat.le_min.mpr ⟨ceilScaled_pos above exponent, word⟩

end ResumableUpload.Binary64
