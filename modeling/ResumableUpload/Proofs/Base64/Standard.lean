import Mathlib.Data.Nat.Bitwise
import ResumableUpload.Proofs.Base64

/-!
# Chunk text and the standard

The standard says what the text of bytes is without saying how it is made: the letters stand for six
bits each, in the order of the alphabet; padding fills the last group of four letters; and the bits of
all letters in a row are those of the bytes, followed by two zeros for each padding (`Spells`).

Such a text exists for all bytes (`spells_letters`), and there is only one (`Spells.unique`).  So the
text of a chunk is the one that the standard has for it, it is read as that chunk, and every other
text is refused (`chunk_has_one_text`).
-/

namespace ResumableUpload.Base64

variable {width one two : Nat} {bytes : Bytes} {text other : List Char}
variable {values others : List (Fin 64)} {padding : Nat}

/-! ## Bits -/

/-- The lowest bits of a number, the highest of them first. -/
def bits : (width value : Nat) → List Bool
  | 0, _ => []
  | width + 1, value => value.testBit width :: bits width value

@[simp]
theorem length_bits (width value : Nat) : (bits width value).length = width := by
  induction width with
  | zero => rfl
  | succ width same => rw [bits, List.length_cons, same]

theorem bits_zero (width : Nat) : bits width 0 = List.replicate width false := by
  induction width with
  | zero => rfl
  | succ width same => rw [bits, Nat.zero_testBit, same, List.replicate_succ]

theorem bits_eq_iff :
    bits width one = bits width two ↔ ∀ place < width, one.testBit place = two.testBit place := by
  induction width with
  | zero => exact ⟨fun _ place below => absurd below (Nat.not_lt_zero place), fun _ => rfl⟩
  | succ width lower =>
      rw [bits, bits, List.cons.injEq, lower]
      constructor
      · rintro ⟨highest, same⟩ place below
        rcases Nat.lt_succ_iff_lt_or_eq.mp below with earlier | rfl
        · exact same place earlier
        · exact highest
      · intro same
        exact ⟨same width (Nat.lt_succ_self width),
          fun place below => same place (Nat.lt_succ_of_lt below)⟩

theorem bits_inj
    (first : one < 2 ^ width)
    (second : two < 2 ^ width)
    (same : bits width one = bits width two) :
    one = two := by
  apply Nat.eq_of_testBit_eq
  intro place
  by_cases below : place < width
  · exact bits_eq_iff.mp same place below
  · have above : 2 ^ width ≤ 2 ^ place := Nat.pow_le_pow_right (by decide) (Nat.le_of_not_lt below)
    rw [Nat.testBit_eq_false_of_lt (first.trans_le above),
      Nat.testBit_eq_false_of_lt (second.trans_le above)]

/-- The bits of a number that is put together from two are the bits of the two. -/
theorem bits_append
    (left right : Nat)
    {value high low : Nat}
    (below : low < 2 ^ right)
    (parts : value = 2 ^ right * high + low) :
    bits (left + right) value = bits left high ++ bits right low := by
  subst parts
  induction left with
  | zero =>
      rw [Nat.zero_add]
      apply bits_eq_iff.mpr
      intro place inside
      rw [Nat.testBit_two_pow_mul_add _ below, if_pos inside]
  | succ left joined =>
      rw [Nat.add_right_comm, bits, bits, joined, Nat.testBit_two_pow_mul_add _ below,
        if_neg (by omega), Nat.add_sub_cancel, List.cons_append]

/-! ## Groups

A group of letters shares the bits of its bytes out: six of the first byte to the first letter, two
of the first and four of the second to the second letter, four of the second and two of the third to
the third letter, and the rest to the last.
-/

theorem bits_first (byte : UInt8) :
    bits 8 byte.toNat = bits 6 (byte.toNat / 4) ++ bits 2 (byte.toNat % 4) :=
  bits_append 6 2 (by omega) (by omega)

theorem bits_second (byte : UInt8) :
    bits 8 byte.toNat = bits 4 (byte.toNat / 16) ++ bits 4 (byte.toNat % 16) :=
  bits_append 4 4 (by omega) (by omega)

/-- A letter that the first byte of a group shares with the next one. -/
theorem bits_shared_first
    (byte : UInt8)
    {next : Nat}
    (below : next < 16) :
    bits 6 (byte.toNat % 4 * 16 + next) = bits 2 (byte.toNat % 4) ++ bits 4 next :=
  bits_append 2 4 (by omega) (by omega)

/-- A letter that the second byte of a group shares with the next one. -/
theorem bits_shared_second
    (byte : UInt8)
    {next : Nat}
    (below : next < 4) :
    bits 6 (byte.toNat % 16 * 4 + next) = bits 4 (byte.toNat % 16) ++ bits 2 next :=
  bits_append 4 2 (by omega) (by omega)

/-- Two letters have the bits of one byte, and zeros. -/
theorem bits_single (first : UInt8) :
    bits 6 (first.toNat / 4) ++ bits 6 (first.toNat % 4 * 16) =
      bits 8 first.toNat ++ List.replicate 4 false := by
  have last := bits_shared_first first (show 0 < 16 by decide)
  rw [Nat.add_zero] at last
  rw [last, bits_first, bits_zero, List.append_assoc]

/-- Three letters have the bits of two bytes, and zeros. -/
theorem bits_pair (first second : UInt8) :
    bits 6 (first.toNat / 4) ++ bits 6 (first.toNat % 4 * 16 + second.toNat / 16) ++
        bits 6 (second.toNat % 16 * 4) =
      bits 8 first.toNat ++ bits 8 second.toNat ++ List.replicate 2 false := by
  have bound := second.toNat_lt
  have last := bits_shared_second second (show 0 < 4 by decide)
  rw [Nat.add_zero] at last
  rw [bits_shared_first first (by omega), last, bits_first, bits_second, bits_zero]
  simp only [List.append_assoc]

/-- Four letters have the bits of three bytes. -/
theorem bits_group (first second third : UInt8) :
    bits 6 (first.toNat / 4) ++ bits 6 (first.toNat % 4 * 16 + second.toNat / 16) ++
        bits 6 (second.toNat % 16 * 4 + third.toNat / 64) ++ bits 6 (third.toNat % 64) =
      bits 8 first.toNat ++ bits 8 second.toNat ++ bits 8 third.toNat := by
  have bound := second.toNat_lt
  have limit := third.toNat_lt
  have last : bits 8 third.toNat = bits 2 (third.toNat / 64) ++ bits 6 (third.toNat % 64) :=
    bits_append 2 6 (by omega) (by omega)
  rw [bits_shared_first first (by omega), bits_shared_second second (by omega), last, bits_first,
    bits_second]
  simp only [List.append_assoc]

/-! ## What the standard has for bytes -/

/-- The letters in the order of their values. -/
def alphabet : Vector Char 64 :=
  ⟨"ABCDEFGHIJKLMNOPQRSTUVWXYZabcdefghijklmnopqrstuvwxyz0123456789+/".toList.toArray, rfl⟩

/-- A text of letters with these values, and of padding, is what the standard has for bytes. -/
structure SpelledWith
    (values : List (Fin 64))
    (padding : Nat)
    (text : List Char)
    (bytes : Bytes) :
    Prop where
  text_eq : text = values.map (alphabet[·]) ++ List.replicate padding '='
  /-- The groups are full. -/
  full : 4 ∣ values.length + padding
  short : padding ≤ 2
  bits_eq :
    values.flatMap (bits 6 ·.val) =
      bytes.flatMap (bits 8 ·.toNat) ++ List.replicate (2 * padding) false

/-- A text is what the standard has for bytes. -/
def Spells (text : List Char) (bytes : Bytes) : Prop :=
  ∃ values padding, SpelledWith values padding text bytes

theorem alphabet_getElem (value : Fin 64) : alphabet[value] = letter value := by
  revert value
  decide +kernel

/-- The text of a chunk is what the standard has for it. -/
theorem spells_letters (bytes : Bytes) : Spells (letters bytes) bytes := by
  fun_induction letters bytes with
  | case1 => exact ⟨[], 0, rfl, by decide, by decide, rfl⟩
  | case2 first =>
      have bound := first.toNat_lt
      refine ⟨[⟨first.toNat / 4, by omega⟩, ⟨first.toNat % 4 * 16, by omega⟩], 2, ?_, by simp,
        Nat.le_refl 2, ?_⟩
      · simp only [List.map_cons, alphabet_getElem]
        rfl
      · simpa using bits_single first
  | case3 first second =>
      have bound := first.toNat_lt
      have limit := second.toNat_lt
      refine ⟨[⟨first.toNat / 4, by omega⟩, ⟨first.toNat % 4 * 16 + second.toNat / 16, by omega⟩,
        ⟨second.toNat % 16 * 4, by omega⟩], 1, ?_, by simp, by decide, ?_⟩
      · simp only [List.map_cons, alphabet_getElem]
        rfl
      · simpa using bits_pair first second
  | case4 first second third rest spelled =>
      have bound := first.toNat_lt
      have limit := second.toNat_lt
      have last := third.toNat_lt
      obtain ⟨values, padding, spelled⟩ := spelled
      have full := spelled.full
      refine ⟨⟨first.toNat / 4, by omega⟩ ::
        ⟨first.toNat % 4 * 16 + second.toNat / 16, by omega⟩ ::
        ⟨second.toNat % 16 * 4 + third.toNat / 64, by omega⟩ ::
        ⟨third.toNat % 64, by omega⟩ :: values, padding, ?_, ?_, spelled.short, ?_⟩
      · simp only [List.map_cons, alphabet_getElem, spelled.text_eq, List.cons_append]
      · simp only [List.length_cons]
        omega
      · simp only [List.flatMap_cons, spelled.bits_eq, ← List.append_assoc, bits_group]

/-! ## There is only one text -/

/-- Values are known by their bits in a row, for each of them has six. -/
theorem flatMap_bits_inj
    (same : values.flatMap (bits 6 ·.val) = others.flatMap (bits 6 ·.val)) :
    values = others := by
  induction values generalizing others with
  | nil =>
      cases others with
      | nil => rfl
      | cons other rest => cases same
  | cons value rest later =>
      cases others with
      | nil => cases same
      | cons other others =>
          have sizes : (bits 6 value.val).length = (bits 6 other.val).length := by
            rw [length_bits, length_bits]
          obtain ⟨head, tail⟩ := List.append_inj same sizes
          rw [Fin.ext (bits_inj value.isLt other.isLt head), later tail]

theorem SpelledWith.count_bits (spelled : SpelledWith values padding text bytes) :
    values.length * 6 = bytes.length * 8 + 2 * padding := by
  have count := congrArg List.length spelled.bits_eq
  simpa [List.length_flatMap, List.map_const', List.sum_replicate_nat] using count

/-- The standard has only one text for bytes. -/
theorem Spells.unique
    (spelled : Spells text bytes)
    (again : Spells other bytes) :
    text = other := by
  obtain ⟨values, padding, spelled⟩ := spelled
  obtain ⟨others, more, again⟩ := again
  -- Full groups of at most two paddings: the number of bytes tells which.
  obtain rfl : padding = more := by
    have bits := spelled.count_bits
    have full := spelled.full
    have short := spelled.short
    have bitsAgain := again.count_bits
    have fullAgain := again.full
    have shortAgain := again.short
    omega
  have same : values = others := flatMap_bits_inj (spelled.bits_eq.trans again.bits_eq.symm)
  rw [spelled.text_eq, again.text_eq, same]

/-- The text of a chunk is the one that the standard has for it. -/
theorem encode_eq_iff_spells {text : String} :
    encode bytes = text ↔ Spells text.toList bytes := by
  constructor
  · rintro rfl
    rw [encode, String.toList_ofList]
    exact spells_letters bytes
  · intro spelled
    rw [encode, (spells_letters bytes).unique spelled, String.ofList_toList]

/--
The text of a chunk is read as the chunk, and a text that is read as a chunk is its text; so just the
texts of chunks are read.  The text of a chunk is the one that the standard has for it.
-/
theorem chunk_has_one_text (bytes : Bytes) (text : String) :
    decode? (encode bytes) = some bytes ∧
      (decode? text = some bytes ↔ encode bytes = text) ∧
      ((decode? text).isSome = true ↔ ∃ chunk, encode chunk = text) ∧
      (encode bytes = text ↔ Spells text.toList bytes) := by
  refine ⟨decode?_encode bytes, decode?_eq_some_iff, ?_, encode_eq_iff_spells⟩
  rw [Option.isSome_iff_exists]
  exact exists_congr fun chunk => decode?_eq_some_iff

/-- A text is refused without its padding, and with a bit that is set among those left over. -/
example :
    decode? "SGVsbG8" = none ∧ decode? "SGVsbG9=" = none ∧
      decode? "SGVsbG8=" = some [72, 101, 108, 108, 111] := by
  decide

end ResumableUpload.Base64
