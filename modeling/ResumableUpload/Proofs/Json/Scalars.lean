import ResumableUpload.Json.Reader
import ResumableUpload.Json.Writer

/-!
# Strings and numbers in JSON text

What is written for a string is read back as that string, whatever characters it has, and what is
written for a number is read back as that number, if the number is one that the grammar allows
(`Number.Legible`) and something follows that ends it.

A character is read as a single piece of its string, be it written as itself, with a letter behind a
backslash, or as the number of a control character (`readPieces_escapedChar`).
-/

namespace ResumableUpload.Json

variable {rest : List Symbol} {digits : List Char}

/-! ## Strings -/

theorem hexNumber?_control :
    ∀ code < 32,
      hexNumber? (some '0') (some '0') (some (Text.hexDigit (code / 16)))
          (some (Text.hexDigit (code % 16))) =
        some code := by
  decide

/-- A piece spells a character if what it begins is the character and what the rest spells. -/
def Piece.Spells (piece : Piece) (character : Char) : Prop :=
  ∀ pieces, assemble? (piece :: pieces) = (assemble? pieces).map (character :: ·)

theorem Piece.spells_char (character : Char) : (Piece.char character).Spells character :=
  fun _ => rfl

/-- The number of a control character is not that of a surrogate. -/
theorem Piece.spells_unit
    {character : Char}
    (control : character.toNat < 32) :
    (Piece.unit character.toNat).Spells character := by
  intro pieces
  have single : character.toNat < 0xD800 ∨ 0xDFFF < character.toNat := by omega
  conv =>
    lhs
    unfold assemble?
  simp only [if_pos single, Char.ofNat_toNat]

theorem readPieces_plain
    {character : Char}
    (quote : character ≠ '"')
    (backslash : character ≠ '\\')
    (printed : ¬ character.toNat < 32)
    (rest : List Symbol) :
    readPieces (some character :: rest) =
      (readPieces rest).bind fun (pieces, rest) => some (.char character :: pieces, rest) := by
  simp [readPieces, backslash, printed]

/-- A character is read as one piece, and the piece spells it. -/
theorem readPieces_escapedChar (character : Char) :
    ∃ piece : Piece,
      piece.Spells character ∧
        ∀ rest,
          readPieces ((escapedChar character).map some ++ rest) =
            (readPieces rest).bind fun (pieces, rest) => some (piece :: pieces, rest) := by
  by_cases lettered : character ∈ ['"', '\\', '\x08', '\x0c', '\n', '\r', '\t']
  · refine ⟨.char character, Piece.spells_char character, fun rest => ?_⟩
    simp only [List.mem_cons, List.not_mem_nil, or_false] at lettered
    rcases lettered with rfl | rfl | rfl | rfl | rfl | rfl | rfl <;> rfl
  · simp only [List.mem_cons, List.not_mem_nil, or_false, not_or] at lettered
    obtain ⟨quote, backslash, backspace, formFeed, newline, carriage, tab⟩ := lettered
    by_cases control : character.toNat < 32
    · refine ⟨.unit character.toNat, Piece.spells_unit control, fun rest => ?_⟩
      simp only [escapedChar, quote, backslash, backspace, formFeed, newline, carriage, tab,
        control, ↓reduceIte, List.map_cons, List.map_nil, List.cons_append, List.nil_append,
        readPieces, hexNumber?_control _ control]
      rfl
    · refine ⟨.char character, Piece.spells_char character, fun rest => ?_⟩
      simp only [escapedChar, quote, backslash, backspace, formFeed, newline, carriage, tab,
        control, ↓reduceIte, List.map_cons, List.map_nil, List.cons_append, List.nil_append]
      exact readPieces_plain quote backslash control rest

theorem readPieces_escaped (text : List Char) (rest : List Symbol) :
    ∃ pieces,
      assemble? pieces = some text ∧
        readPieces ((text.flatMap escapedChar).map some ++ some '"' :: rest) =
          some (pieces, rest) := by
  induction text with
  | nil => exact ⟨[], rfl, rfl⟩
  | cons character text earlier =>
      obtain ⟨pieces, spelled, read⟩ := earlier
      obtain ⟨piece, spells, reads⟩ := readPieces_escapedChar character
      refine ⟨piece :: pieces, ?_, ?_⟩
      · rw [spells, spelled, Option.map_some]
      · rw [List.flatMap_cons, List.map_append, List.append_assoc, reads, read, Option.bind_some]

/-- What is written for a string is read as the string, whatever follows. -/
theorem readString_escaped (text : String) (rest : List Symbol) :
    readString ((text.toList.flatMap escapedChar).map some ++ some '"' :: rest) =
      some (some text, rest) := by
  obtain ⟨pieces, spelled, read⟩ := readPieces_escaped text.toList rest
  simp only [readString, read, Option.bind_eq_bind, Option.bind_some, spelled, Option.map_some,
    String.ofList_toList]

/-! ## Rows of digits -/

/-- A row of decimal digits, at least one. -/
def Decimal (digits : List Char) : Prop :=
  digits ≠ [] ∧ ∀ digit ∈ digits, isDigit (some digit) = true

/-- No digit follows. -/
def Halts (rest : List Symbol) : Prop :=
  ∀ symbol ∈ rest.head?, isDigit symbol = false

/-- Nothing follows, or something that stands after a value. -/
def Ends (rest : List Symbol) : Prop :=
  ∀ symbol ∈ rest.head?, symbol ∈ [some ',', some ']', some '\x7d']

theorem Decimal.eq_cons (decimal : Decimal digits) :
    ∃ first more, digits = first :: more ∧ isDigit (some first) = true := by
  cases digits with
  | nil => exact absurd rfl decimal.1
  | cons first more => exact ⟨first, more, rfl, decimal.2 first List.mem_cons_self⟩

theorem halts_cons
    {character : Char}
    (other : isDigit (some character) = false) :
    Halts (some character :: rest) := by
  rintro _ ⟨⟩
  exact other

theorem ends_nil : Ends [] := by
  rintro _ ⟨⟩

theorem ends_cons
    {symbol : Symbol}
    (closing : symbol ∈ [some ',', some ']', some '\x7d']) :
    Ends (symbol :: rest) := by
  rintro _ ⟨⟩
  exact closing

theorem Ends.cases (ends : Ends rest) :
    rest = [] ∨
      ∃ others, rest = some ',' :: others ∨ rest = some ']' :: others ∨
        rest = some '\x7d' :: others := by
  cases rest with
  | nil => exact .inl rfl
  | cons symbol others =>
      have closing := ends symbol rfl
      simp only [List.mem_cons, List.not_mem_nil, or_false] at closing
      exact .inr ⟨others, by simpa only [List.cons.injEq, and_true] using closing⟩

theorem Ends.halts (ends : Ends rest) : Halts rest := by
  rcases ends.cases with rfl | ⟨others, rfl | rfl | rfl⟩
  · rintro _ ⟨⟩
  · exact halts_cons (by decide)
  · exact halts_cons (by decide)
  · exact halts_cons (by decide)

theorem readSomeDigits_append
    (decimal : Decimal digits)
    (halts : Halts rest) :
    readSomeDigits (digits.map some ++ rest) = some (digits, rest) := by
  have all : ∀ symbol ∈ digits.map some, isDigit symbol = true := by
    simpa only [List.mem_map, forall_exists_index, and_imp, forall_apply_eq_imp_iff₂]
      using decimal.2
  have none_more : rest.takeWhile isDigit = [] ∧ rest.dropWhile isDigit = rest := by
    cases rest with
    | nil => exact ⟨rfl, rfl⟩
    | cons symbol others =>
        have other : isDigit symbol = false := halts symbol rfl
        simp only [List.takeWhile_cons, List.dropWhile_cons, other, Bool.false_eq_true, ↓reduceIte,
          and_self]
  have read : readDigits (digits.map some ++ rest) = (digits, rest) := by
    unfold readDigits
    rw [List.takeWhile_append_of_pos all, List.dropWhile_append_of_pos all, none_more.1,
      none_more.2, List.append_nil, List.filterMap_map]
    simp only [Function.comp_def, id_eq, List.filterMap_some]
  obtain ⟨first, more, rfl, _⟩ := decimal.eq_cons
  simp only [readSomeDigits, read]

/-! ## Numbers -/

/-- A number that the grammar allows: no row of digits is empty, and a leading zero stands alone. -/
structure Number.Legible (number : Number) : Prop where
  whole : Decimal number.whole
  leading : number.whole.head? = some '0' → number.whole.length ≤ 1
  fraction : ∀ digits ∈ number.fraction, Decimal digits
  exponent : ∀ written ∈ number.exponent, Decimal written.2

/-- What is written for a fraction, if there is one. -/
def writtenFraction : Option (List Char) → List Char
  | some digits => '.' :: digits
  | none => []

/-- What is written for an exponent, if there is one. -/
def writtenExponent : Option (Bool × List Char) → List Char
  | some (negative, digits) => 'e' :: ((if negative then ['-'] else []) ++ digits)
  | none => []

/-- What is written for a number after its sign. -/
def writtenMagnitude (number : Number) : List Char :=
  number.whole ++ (writtenFraction number.fraction ++ writtenExponent number.exponent)

theorem writtenNumber_eq (number : Number) :
    writtenNumber number =
      (if number.negative then ['-'] else []) ++ writtenMagnitude number := by
  obtain ⟨negative, whole, fraction, exponent⟩ := number
  cases fraction <;> cases exponent <;>
    simp only [writtenNumber, writtenMagnitude, writtenFraction, writtenExponent,
      List.append_assoc, List.append_nil, List.nil_append]

theorem readExponent_written
    {exponent : Option (Bool × List Char)}
    (legible : ∀ written ∈ exponent, Decimal written.2)
    (ends : Ends rest) :
    readExponent ((writtenExponent exponent).map some ++ rest) = some (exponent, rest) := by
  cases exponent with
  | none => rcases ends.cases with rfl | ⟨others, rfl | rfl | rfl⟩ <;> rfl
  | some written =>
      obtain ⟨negative, digits⟩ := written
      have decimal : Decimal digits := legible _ rfl
      have read := readSomeDigits_append decimal ends.halts
      cases negative with
      | true =>
          simp only [writtenExponent, if_true, List.map_cons, List.cons_append, List.nil_append,
            readExponent, read, true_or]
          rfl
      | false =>
          obtain ⟨first, more, rfl, isFirst⟩ := decimal.eq_cons
          have plus : first ≠ '+' := by
            rintro rfl
            cases isFirst
          have minus : first ≠ '-' := by
            rintro rfl
            cases isFirst
          simp only [List.map_cons, List.cons_append] at read
          simp [writtenExponent, readExponent, plus, minus, read]

theorem halts_exponent
    {exponent : Option (Bool × List Char)}
    (ends : Ends rest) :
    Halts ((writtenExponent exponent).map some ++ rest) := by
  cases exponent with
  | none => exact ends.halts
  | some => exact halts_cons (by decide)

theorem readFraction_written
    {fraction : Option (List Char)}
    {exponent : Option (Bool × List Char)}
    (legible : ∀ digits ∈ fraction, Decimal digits)
    (ends : Ends rest) :
    readFraction
        ((writtenFraction fraction).map some ++ ((writtenExponent exponent).map some ++ rest)) =
      some (fraction, (writtenExponent exponent).map some ++ rest) := by
  cases fraction with
  | some digits =>
      have halts : Halts ((writtenExponent exponent).map some ++ rest) := halts_exponent ends
      have read := readSomeDigits_append (legible digits rfl) halts
      simp only [writtenFraction, List.map_cons, List.cons_append, readFraction, read]
      rfl
  | none =>
      cases exponent with
      | some => rfl
      | none => rcases ends.cases with rfl | ⟨others, rfl | rfl | rfl⟩ <;> rfl

/-- What is written for a number after its sign is read as the number. -/
theorem readNumber_written
    {number : Number}
    (legible : number.Legible)
    (ends : Ends rest) :
    readNumber number.negative ((writtenMagnitude number).map some ++ rest) =
      some (number, rest) := by
  obtain ⟨negative, whole, fraction, exponent⟩ := number
  obtain ⟨decimal, leading, fractional, exponential⟩ := legible
  have halts :
      Halts
        ((writtenFraction fraction).map some ++ ((writtenExponent exponent).map some ++ rest)) := by
    cases fraction with
    | some => exact halts_cons (by decide)
    | none => exact halts_exponent ends
  have alone : ¬ (whole.head? = some '0' ∧ 1 < whole.length) := by
    rintro ⟨zero, long⟩
    exact Nat.not_lt_of_le (leading zero) long
  simp only [readNumber, writtenMagnitude, List.map_append, List.append_assoc,
    readSomeDigits_append decimal halts, Option.bind_eq_bind, Option.bind_some, if_neg alone,
    readFraction_written fractional ends, readExponent_written exponential ends]

/-! ## Natural numbers -/

theorem digitsValue_toDigits (value : Nat) : digitsValue (Nat.toDigits 10 value) = value := by
  have read := Nat.ofDigitChars_ten_toDigits (n := value)
  simp only [Nat.ofDigitChars_eq_foldl, Nat.mul_comm 10] at read
  exact read

theorem head?_toDigits
    {value : Nat}
    (above : 0 < value) :
    (Nat.toDigits 10 value).head? ≠ some '0' := by
  induction value using Nat.strongRecOn with
  | ind value smaller =>
      by_cases single : value < 10
      · rw [Nat.toDigits_of_lt_base single]
        simp only [List.head?_cons, ne_eq, Option.some.injEq, Nat.digitChar_eq_zero]
        omega
      · rw [Nat.toDigits_of_base_le (by decide) (Nat.le_of_not_lt single), List.head?_append]
        intro zero
        cases first : (Nat.toDigits 10 (value / 10)).head? with
        | none => exact Nat.toDigits_ne_nil (List.head?_eq_none_iff.mp first)
        | some digit =>
            rw [first, Option.some_or] at zero
            exact smaller (value / 10) (by omega) (by omega) (first.trans zero)

theorem Number.legible_ofNat (value : Nat) : (Number.ofNat value).Legible where
  whole :=
    ⟨Nat.toDigits_ne_nil, fun _ member =>
      Nat.isDigit_of_mem_toDigits (by decide) (by decide) member⟩
  leading zero := by
    rcases Nat.eq_zero_or_pos value with rfl | above
    · decide
    · exact absurd zero (head?_toDigits above)
  fraction := by rintro _ ⟨⟩
  exponent := by rintro _ ⟨⟩

theorem Number.toNat?_ofNat
    {value limit : Nat}
    (within : value ≤ limit) :
    (Number.ofNat value).toNat? limit = some value := by
  simp only [Number.ofNat, Number.toNat?, Option.isSome_none, Bool.or_self, Bool.false_eq_true,
    ↓reduceIte, digitsValue_toDigits, within]

end ResumableUpload.Json
