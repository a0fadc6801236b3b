import Mathlib.Tactic.SplitIfs
import ResumableUpload.Base64

/-!
# Chunk text round trip

Reading the text of a chunk gives the chunk back.  A letter never is the padding, so a full group of
letters is read as one, wherever it stands; a last group that is padded leaves over zero bits only.

Conversely a text that is read is the text of what it is read as: a letter is known by its value, and
the bits that are not kept are zero.
-/

namespace ResumableUpload.Base64

variable {value : Nat} {character : Char} {bytes : Bytes} {text : String} {characters : List Char}

theorem value?_letter
    (below : value < 64) :
    value? (letter value) = some value := by
  have every : ∀ value : Fin 64, value? (letter value) = some value.val := by decide
  exact every ⟨value, below⟩

/-- A letter that has a value is the letter of that value. -/
theorem letter_of_value? (known : value? character = some value) :
    value < 64 ∧ letter value = character := by
  simp only [value?] at known
  unfold letter
  split_ifs at known with upper lower digit plus slash
  all_goals cases known
  · refine ⟨by omega, ?_⟩
    rw [if_pos (by omega), Nat.sub_add_cancel (by omega), Char.ofNat_toNat]
  · refine ⟨by omega, ?_⟩
    rw [if_neg (by omega), if_pos (by omega), Nat.sub_add_cancel (by omega), Char.ofNat_toNat]
  · refine ⟨by omega, ?_⟩
    rw [if_neg (by omega), if_neg (by omega), if_pos (by omega), Nat.add_sub_cancel,
      Char.ofNat_toNat]
  · exact ⟨by decide, plus.symm⟩
  · exact ⟨by decide, slash.symm⟩

theorem letter_ne_padding
    (below : value < 64) :
    letter value ≠ '=' := by
  have every : ∀ value : Fin 64, letter value ≠ '=' := by decide
  exact every ⟨value, below⟩

theorem ofLetters?_group
    {one two three four : Nat}
    {rest : List Char}
    {tail : Bytes}
    (first : one < 64)
    (second : two < 64)
    (third : three < 64)
    (fourth : four < 64)
    (read : ofLetters? rest = some tail) :
    ofLetters? (letter one :: letter two :: letter three :: letter four :: rest) =
      some (UInt8.ofNat (one * 4 + two / 16) :: UInt8.ofNat (two % 16 * 16 + three / 4) ::
        UInt8.ofNat (three % 4 * 64 + four) :: tail) := by
  rw [ofLetters?.eq_4]
  · simp only [value?_letter first, value?_letter second, value?_letter third,
      value?_letter fourth, read]
    rfl
  · intro _ padding
    exact absurd padding (letter_ne_padding fourth)
  · intro padding
    exact absurd padding (letter_ne_padding fourth)

/-- A group with one letter of padding is two bytes if the third letter leaves over zeros. -/
theorem ofLetters?_single
    {one two three : Nat}
    (first : one < 64)
    (second : two < 64)
    (third : three < 64)
    (zeros : three % 4 = 0) :
    ofLetters? [letter one, letter two, letter three, '='] =
      some [UInt8.ofNat (one * 4 + two / 16), UInt8.ofNat (two % 16 * 16 + three / 4)] := by
  rw [ofLetters?.eq_3]
  · simp only [value?_letter first, value?_letter second, value?_letter third]
    exact if_pos zeros
  · intro padding
    exact absurd padding (letter_ne_padding third)

/-- A group with two letters of padding is one byte if the second letter leaves over zeros. -/
theorem ofLetters?_double
    {one two : Nat}
    (first : one < 64)
    (second : two < 64)
    (zeros : two % 16 = 0) :
    ofLetters? [letter one, letter two, '=', '='] =
      some [UInt8.ofNat (one * 4 + two / 16)] := by
  rw [ofLetters?.eq_2]
  simp only [value?_letter first, value?_letter second]
  exact if_pos zeros

theorem ofLetters?_letters (bytes : Bytes) :
    ofLetters? (letters bytes) = some bytes := by
  fun_induction letters bytes with
  | case1 => rfl
  | case2 first =>
      have bound := first.toNat_lt
      rw [ofLetters?_double (by omega) (by omega) (by omega)]
      have same : first.toNat / 4 * 4 + first.toNat % 4 * 16 / 16 = first.toNat := by omega
      rw [same, UInt8.ofNat_toNat]
  | case3 first second =>
      have bound := first.toNat_lt
      have limit := second.toNat_lt
      rw [ofLetters?_single (by omega) (by omega) (by omega) (by omega)]
      have one :
          first.toNat / 4 * 4 + (first.toNat % 4 * 16 + second.toNat / 16) / 16 =
            first.toNat := by
        omega
      have two :
          (first.toNat % 4 * 16 + second.toNat / 16) % 16 * 16 + second.toNat % 16 * 4 / 4 =
            second.toNat := by
        omega
      rw [one, two, UInt8.ofNat_toNat, UInt8.ofNat_toNat]
  | case4 first second third rest read =>
      have bound := first.toNat_lt
      have limit := second.toNat_lt
      have last := third.toNat_lt
      rw [ofLetters?_group (by omega) (by omega) (by omega) (by omega) read]
      have one :
          first.toNat / 4 * 4 + (first.toNat % 4 * 16 + second.toNat / 16) / 16 =
            first.toNat := by
        omega
      have two :
          (first.toNat % 4 * 16 + second.toNat / 16) % 16 * 16 +
              (second.toNat % 16 * 4 + third.toNat / 64) / 4 =
            second.toNat := by
        omega
      have three :
          (second.toNat % 16 * 4 + third.toNat / 64) % 4 * 64 + third.toNat % 64 =
            third.toNat := by
        omega
      rw [one, two, three, UInt8.ofNat_toNat, UInt8.ofNat_toNat, UInt8.ofNat_toNat]

/-- Reading the text of a chunk gives the chunk back. -/
@[simp]
theorem decode?_encode (bytes : Bytes) :
    decode? (encode bytes) = some bytes := by
  rw [decode?, encode, String.toList_ofList, ofLetters?_letters]

/-! ## From the text to the chunk and back -/

/-- The bound is spelled out here, where arithmetic has to meet it. -/
theorem toNat_byte (below : value < 256) : (UInt8.ofNat value).toNat = value :=
  UInt8.toNat_ofNat_of_lt' below

/-- Letters that are read are those of the bytes that they are read as. -/
theorem letters_of_ofLetters? (read : ofLetters? characters = some bytes) :
    letters bytes = characters := by
  fun_induction ofLetters? characters generalizing bytes with
  | case1 =>
      cases read
      rfl
  | case2 first second =>
      simp only [Option.bind_eq_bind, Option.bind_eq_some_iff] at read
      obtain ⟨one, known, two, low, kept⟩ := read
      obtain ⟨zeros, made⟩ := Option.ite_none_right_eq_some.mp kept
      cases made
      obtain ⟨_, rfl⟩ := letter_of_value? known
      obtain ⟨_, rfl⟩ := letter_of_value? low
      have front : (one * 4 + two / 16) / 4 = one := by omega
      have back : (one * 4 + two / 16) % 4 * 16 = two := by omega
      rw [letters, toNat_byte (by omega), front, back]
  | case3 first second third =>
      simp only [Option.bind_eq_bind, Option.bind_eq_some_iff] at read
      obtain ⟨one, known, two, middle, three, low, kept⟩ := read
      obtain ⟨zeros, made⟩ := Option.ite_none_right_eq_some.mp kept
      cases made
      obtain ⟨_, rfl⟩ := letter_of_value? known
      obtain ⟨_, rfl⟩ := letter_of_value? middle
      obtain ⟨_, rfl⟩ := letter_of_value? low
      have front : (one * 4 + two / 16) / 4 = one := by omega
      have between :
          (one * 4 + two / 16) % 4 * 16 + (two % 16 * 16 + three / 4) / 16 = two := by
        omega
      have back : (two % 16 * 16 + three / 4) % 16 * 4 = three := by omega
      rw [letters, toNat_byte (by omega), toNat_byte (by omega), front, between, back]
  | case4 first second third fourth rest _ _ same =>
      simp only [Option.bind_eq_bind, Option.bind_eq_some_iff] at read
      obtain ⟨one, known, two, next, three, further, four, low, tail, after, made⟩ := read
      cases made
      obtain ⟨_, rfl⟩ := letter_of_value? known
      obtain ⟨_, rfl⟩ := letter_of_value? next
      obtain ⟨_, rfl⟩ := letter_of_value? further
      obtain ⟨_, rfl⟩ := letter_of_value? low
      have front : (one * 4 + two / 16) / 4 = one := by omega
      have between :
          (one * 4 + two / 16) % 4 * 16 + (two % 16 * 16 + three / 4) / 16 = two := by
        omega
      have beyond :
          (two % 16 * 16 + three / 4) % 16 * 4 + (three % 4 * 64 + four) / 64 = three := by
        omega
      have back : (three % 4 * 64 + four) % 64 = four := by omega
      rw [letters, toNat_byte (by omega), toNat_byte (by omega), toNat_byte (by omega), front,
        between, beyond, back, same after]
  | case5 => cases read

/-- A text is read as a chunk just if it is the text of that chunk. -/
theorem decode?_eq_some_iff : decode? text = some bytes ↔ encode bytes = text := by
  constructor
  · intro read
    rw [encode, letters_of_ofLetters? read, String.ofList_toList]
  · rintro rfl
    exact decode?_encode bytes

end ResumableUpload.Base64
