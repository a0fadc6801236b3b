import ResumableUpload.Config
import ResumableUpload.Proofs.Binary64

/-!
# The lengths of chunks

A `Pace` keeps a bound if every length that it goes through is at least that.  Two rules for scaling
a length matter: `scaleExactly` rounds the exact product up, and then an accepted configuration never
falls below its floor; `scaleLength` works in binary64 arithmetic, which may round a long length
down by itself, and then a length is at least one all the same.

Rounded up, a length need not become shorter.  Whether it does above the floor depends on the ratio:
up to `floor / (floor + 1)` every such length does (`Config.shortens`), and with a larger ratio none
comes down to the floor (`Config.keeps_above_floor`).
-/

namespace ResumableUpload

/-- The lengths that a pace starts with and goes through are at least this. -/
structure Pace.Keeps (pace : Pace) (least : Nat) : Prop where
  start : least ≤ pace.start
  grow : ∀ {length : Nat}, least ≤ length → least ≤ pace.grow length
  shrink : ∀ {length : Nat}, least ≤ length → least ≤ pace.shrink length

/--
A length times a ratio, rounded up to a whole length and held to sixty-four bits.  Ratios that are
not finite and positive are never accepted; they give zero.
-/
def scaleExactly (ratio : Binary64) (length : Nat) : Nat :=
  match ratio.datum with
  | .finite false significand exponent =>
    min (Binary64.ceilScaled (length * significand) exponent) (Nat.pow 2 64 - 1)
  | _ => 0

/-! ## Accepted configurations -/

/-- What a configuration without a fault satisfies, as far as the pace depends on it. -/
structure Config.Sound (config : Config) : Prop where
  floor : 1 ≤ config.chunkLengthFloor
  start : config.chunkLengthFloor ≤ config.chunkLength
  speedUp : config.speedUpRatio.isFiniteFromOne = true

theorem Config.check_eq_ok_iff
    {config : Config} :
    config.check = .ok () ↔ config.fault? = none := by
  unfold check
  cases config.fault? with
  | none => simp only
  | some fault => simp only [reduceCtorEq]

theorem Config.sound_of_check
    {config : Config}
    (valid : config.check = .ok ()) :
    config.Sound := by
  have faultless := check_eq_ok_iff.mp valid
  unfold fault? at faultless
  split at faultless
  case isTrue => cases faultless
  case isFalse floor =>
      split at faultless
      case isTrue => cases faultless
      case isFalse start =>
          split at faultless
          case isTrue => cases faultless
          case isFalse speedUp =>
              exact ⟨Nat.one_le_iff_ne_zero.mpr floor, Nat.le_of_not_lt start,
                by simpa only [Bool.not_eq_true, Bool.not_eq_false] using speedUp⟩

/-- A pace keeps what is not above the floor, if growth by the ratio keeps it. -/
theorem Config.keeps_of_grow
    {config : Config}
    {scale : Binary64 → Nat → Nat}
    {least : Nat}
    (low : least ≤ config.chunkLengthFloor)
    (grow : ∀ {length : Nat}, least ≤ length → least ≤ scale config.speedUpRatio length) :
    (config.paceWith scale).Keeps least where
  start := Nat.le_trans low (Nat.le_max_right _ _)
  grow := grow
  shrink _ := Nat.le_trans low (Nat.le_max_right _ _)

/-! ## Exact products -/

/-- Growth by an accepted ratio shortens no length, except to hold it to sixty-four bits. -/
theorem le_scaleExactly
    {ratio : Binary64}
    (fromOne : ratio.isFiniteFromOne = true)
    (length : Nat) :
    min length (Nat.pow 2 64 - 1) ≤ scaleExactly ratio length := by
  obtain ⟨significand, exponent, datum, above, large⟩ :=
    Binary64.datum_of_isFiniteFromOne fromOne
  have longer : length ≤ Binary64.ceilScaled (length * significand) exponent := by
    cases exponent with
    | ofNat power =>
        have scaled : 0 < significand * Nat.pow 2 power :=
          Nat.mul_pos above (Nat.two_pow_pos power)
        calc
          length ≤ length * (significand * Nat.pow 2 power) := Nat.le_mul_of_pos_right _ scaled
          _ = length * significand * Nat.pow 2 power := (Nat.mul_assoc _ _ _).symm
    | negSucc power =>
        have unit : Nat.pow 2 (power + 1) ≤ significand :=
          (Nat.le_log2 (Nat.ne_of_gt above)).mp (by omega)
        refine (Nat.le_div_iff_mul_le (Nat.two_pow_pos (power + 1))).mpr ?_
        exact Nat.le_trans (Nat.mul_le_mul_left length unit) (Nat.le_add_right _ _)
  unfold scaleExactly
  simp only [datum]
  omega

/-- With exact products the lengths of an accepted configuration stay at the floor or above. -/
theorem Config.keeps_floor
    {config : Config}
    (valid : config.check = .ok ())
    (word : config.chunkLength < Nat.pow 2 64) :
    (config.paceWith scaleExactly).Keeps config.chunkLengthFloor := by
  have sound := config.sound_of_check valid
  refine config.keeps_of_grow (Nat.le_refl _) ?_
  intro length above
  have held : config.chunkLengthFloor ≤ min length (Nat.pow 2 64 - 1) :=
    Nat.le_min.mpr ⟨above, Nat.le_trans sound.start (Nat.le_sub_one_of_lt word)⟩
  exact Nat.le_trans held (le_scaleExactly sound.speedUp length)

/-- With exact products no length of an accepted configuration comes to nothing. -/
theorem Config.keeps_one_exactly
    {config : Config}
    (valid : config.check = .ok ()) :
    (config.paceWith scaleExactly).Keeps 1 := by
  have sound := config.sound_of_check valid
  refine config.keeps_of_grow sound.floor ?_
  intro length above
  exact Nat.le_trans (Nat.le_min.mpr ⟨above, by decide⟩) (le_scaleExactly sound.speedUp length)

/-! ## Shrinking

Whether failures shorten every length above the floor is decided by the length just above it: it is
shortened by exactly those ratios that are at most `floor / (floor + 1)`.  Any larger ratio is
rounded up again and leaves that length, and every longer one, above the floor.
-/

section Shrinking

variable {ratio : Binary64} {floor length : Nat}

/-- No length falls below the floor, and every length above the floor gets shorter. -/
structure Pace.Shortens (pace : Pace) : Prop where
  floor : ∀ length : Nat, pace.floor ≤ pace.shrink length
  less : ∀ {length : Nat}, pace.floor < length → pace.shrink length < length

/-- The number is at most `numerator / denominator`. -/
def Binary64.isAtMost (number : Binary64) (numerator denominator : Nat) : Bool :=
  match number.datum with
  | .notANumber => false
  | .infinite negative => negative
  | .finite negative significand (.ofNat power) =>
    negative || significand * Nat.pow 2 power * denominator ≤ numerator
  | .finite negative significand (.negSucc power) =>
    negative || significand * denominator ≤ numerator * Nat.pow 2 (power + 1)

/-- A number between zero and one is a fraction whose denominator is a power of two. -/
theorem Binary64.datum_of_isBelowOne
    {ratio : Binary64}
    (below : ratio.isBelowOne = true) :
    ∃ significand power,
      ratio.datum = .finite false significand (.negSucc power) ∧
        0 < significand ∧ significand < Nat.pow 2 (power + 1) := by
  unfold isBelowOne at below
  split at below
  case h_1 significand power datum =>
      simp only [Bool.and_eq_true, decide_eq_true_eq] at below
      exact ⟨significand, power, datum, below⟩
  case h_2 => cases below

theorem Config.speedDown_of_check
    {config : Config}
    (valid : config.check = .ok ()) :
    config.speedDownRatio.isBelowOne = true := by
  have faultless := check_eq_ok_iff.mp valid
  unfold fault? at faultless
  split at faultless
  · cases faultless
  · split at faultless
    · cases faultless
    · split at faultless
      · cases faultless
      · split at faultless
        · cases faultless
        · rename_i speedDown
          simpa only [Bool.not_eq_true, Bool.not_eq_false] using speedDown

/-- A length above the floor gets shorter if the ratio is at most `floor / (floor + 1)`. -/
theorem scaleExactly_lt
    (below : ratio.isBelowOne = true)
    (steep : ratio.isAtMost floor (floor + 1) = true)
    (above : floor < length) :
    scaleExactly ratio length < length := by
  obtain ⟨significand, power, datum, _, small⟩ := Binary64.datum_of_isBelowOne below
  simp only [Binary64.isAtMost, datum, Bool.false_or, decide_eq_true_eq] at steep
  simp only [scaleExactly, datum, Binary64.ceilScaled]
  generalize unit : Nat.pow 2 (power + 1) = denominator at small steep ⊢
  have positive : 0 < denominator := Nat.lt_of_le_of_lt (Nat.zero_le _) small
  refine Nat.lt_of_le_of_lt (Nat.min_le_left _ _) ?_
  refine (Nat.div_lt_iff_lt_mul positive).mpr ?_
  obtain ⟨gap, rfl⟩ := Nat.exists_eq_add_of_lt small
  -- What is cut off a length of `floor + 1` makes up a whole unit.
  have whole : significand + gap + 1 ≤ (floor + 1) * (gap + 1) := by
    have same := Nat.mul_comm significand floor
    simp only [Nat.mul_add, Nat.add_mul, Nat.mul_one, Nat.one_mul] at steep ⊢
    omega
  calc
    length * significand + (significand + gap + 1 - 1)
        < length * significand + (floor + 1) * (gap + 1) := by omega
    _ ≤ length * significand + length * (gap + 1) :=
        Nat.add_le_add_left (Nat.mul_le_mul_right _ above) _
    _ = length * (significand + gap + 1) := (Nat.mul_add _ _ _).symm

/-- A length above the floor stays above it if the ratio is more than `floor / (floor + 1)`. -/
theorem lt_scaleExactly
    (below : ratio.isBelowOne = true)
    (flat : ratio.isAtMost floor (floor + 1) = false)
    (word : floor < Nat.pow 2 64 - 1)
    (above : floor < length) :
    floor < scaleExactly ratio length := by
  obtain ⟨significand, power, datum, _, small⟩ := Binary64.datum_of_isBelowOne below
  simp only [Binary64.isAtMost, datum, Bool.false_or, decide_eq_false_iff_not, Nat.not_le] at flat
  simp only [scaleExactly, datum, Binary64.ceilScaled]
  generalize unit : Nat.pow 2 (power + 1) = denominator at small flat ⊢
  have positive : 0 < denominator := Nat.lt_of_le_of_lt (Nat.zero_le _) small
  refine Nat.lt_min.mpr ⟨(Nat.le_div_iff_mul_le positive).mpr ?_, word⟩
  have longer : (floor + 1) * significand ≤ length * significand := Nat.mul_le_mul_right _ above
  calc
    (floor + 1) * denominator = floor * denominator + denominator := Nat.succ_mul _ _
    _ ≤ (floor + 1) * significand + (denominator - 1) := by
        rw [Nat.mul_comm (floor + 1)]
        omega
    _ ≤ length * significand + (denominator - 1) := by omega

/-- Under a steep ratio failures shorten the chunks down to the floor. -/
theorem Config.shortens
    {config : Config}
    (valid : config.check = .ok ())
    (steep :
      config.speedDownRatio.isAtMost config.chunkLengthFloor (config.chunkLengthFloor + 1) = true) :
    (config.paceWith scaleExactly).Shortens where
  floor _ := Nat.le_max_right _ _
  less above := by
    have shorter := scaleExactly_lt (config.speedDown_of_check valid) steep above
    exact Nat.max_lt.mpr ⟨shorter, above⟩

/-- Under a flat ratio no length comes down to the floor. -/
theorem Config.keeps_above_floor
    {config : Config}
    (valid : config.check = .ok ())
    (word : config.chunkLength < Nat.pow 2 64)
    (long : config.chunkLengthFloor < config.chunkLength)
    (flat :
      config.speedDownRatio.isAtMost config.chunkLengthFloor (config.chunkLengthFloor + 1) =
        false) :
    (config.paceWith scaleExactly).Keeps (config.chunkLengthFloor + 1) where
  start := Nat.le_trans long (Nat.le_max_left _ _)
  grow above := by
    have held := le_scaleExactly (config.sound_of_check valid).speedUp
    refine Nat.le_trans (Nat.le_min.mpr ⟨above, ?_⟩) (held _)
    exact Nat.le_sub_one_of_lt (Nat.lt_of_le_of_lt long word)
  shrink above := by
    refine Nat.le_trans ?_ (Nat.le_max_left _ _)
    have small := Nat.lt_of_lt_of_le long (Nat.le_sub_one_of_lt word)
    exact lt_scaleExactly (config.speedDown_of_check valid) flat small above

end Shrinking

/-! ## Products in binary64 arithmetic -/

/-- In binary64 arithmetic an accepted configuration still never comes to an empty chunk. -/
theorem Config.keeps_one
    {config : Config}
    (valid : config.check = .ok ()) :
    config.tuning.pace.Keeps 1 := by
  have sound := config.sound_of_check valid
  refine config.keeps_of_grow sound.floor ?_
  intro length above
  exact ((Binary64.positive_ofNat above).mul sound.speedUp).one_le_ceilWord

end ResumableUpload
