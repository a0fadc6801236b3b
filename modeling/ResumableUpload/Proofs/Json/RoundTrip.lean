import ResumableUpload.Proofs.Json.Scalars

/-!
# JSON text round trip

Reading the text of a value gives the value back (`parse?_render`), if all its strings and keys have
texts and its numbers are ones that the grammar allows (`Value.Legible`).  The reader needs no more
fuel than the text has characters, since what is written for an element or a member is shorter than
what is written for the array or object it is part of.
-/

namespace ResumableUpload.Json

variable {value : Value} {fuel : Nat} {rest : List Symbol}

/-- The members of a record as they stand in an object. -/
def keyed (members : List (String × Value)) : List (Option String × Value) :=
  members.map fun (key, value) => (some key, value)

/-- A value whose strings and keys have texts, and whose numbers the grammar allows. -/
inductive Value.Legible : Value → Prop where
  | null : Legible .null
  | bool (value : Bool) : Legible (.bool value)
  | number {number : Number} (legible : number.Legible) : Legible (.number number)
  | text (text : String) : Legible (.ofText text)
  | array {elements : List Value}
      (legible : ∀ element ∈ elements, Legible element) :
      Legible (.array elements)
  | record {members : List (String × Value)}
      (legible : ∀ member ∈ members, Legible member.2) :
      Legible (.record members)

theorem Value.legible_ofNat (value : Nat) : (Value.ofNat value).Legible :=
  .number (Number.legible_ofNat value)

/-- What is written for the value is read as the value, whatever ends it. -/
def Value.Reads (value : Value) : Prop :=
  ∀ (fuel : Nat) (rest : List Symbol),
    (written value).length ≤ fuel → Ends rest →
      readValue fuel ((written value).map some ++ rest) = some (value, rest)

/-! ## Where a value starts -/

theorem skipBlanks_cons
    {symbol : Symbol}
    (dark : isBlank symbol = false)
    (rest : List Symbol) :
    skipBlanks (symbol :: rest) = symbol :: rest := by
  simp only [skipBlanks, List.dropWhile_cons, dark, Bool.false_eq_true, ↓reduceIte]

theorem skipBlanks_comma (rest : List Symbol) : skipBlanks (some ',' :: rest) = some ',' :: rest :=
  skipBlanks_cons (by decide) rest

theorem skipBlanks_colon (rest : List Symbol) : skipBlanks (some ':' :: rest) = some ':' :: rest :=
  skipBlanks_cons (by decide) rest

/-- A digit is none of the characters that other values start with, nor a blank. -/
theorem isBlank_digit
    {digit : Char}
    (decimal : isDigit (some digit) = true) :
    isBlank (some digit) = false := by
  have other : ∀ blank ∈ [' ', '\n', '\t', '\r'], digit ≠ blank := by
    rintro blank member rfl
    simp only [List.mem_cons, List.not_mem_nil, or_false] at member
    rcases member with rfl | rfl | rfl | rfl <;> cases decimal
  simp only [List.mem_cons, List.not_mem_nil, or_false, forall_eq_or_imp, forall_eq] at other
  simp [isBlank, other]

/-- A value starts with a character that is neither a blank nor the end of an array. -/
theorem Value.Legible.written_eq_cons (legible : value.Legible) :
    ∃ first more,
      written value = first :: more ∧ isBlank (some first) = false ∧ first ≠ ']' := by
  cases legible with
  | null => exact ⟨_, _, rfl, by decide, by decide⟩
  | bool value => cases value <;> exact ⟨_, _, rfl, by decide, by decide⟩
  | text => exact ⟨_, _, rfl, by decide, by decide⟩
  | array => exact ⟨_, _, rfl, by decide, by decide⟩
  | record => exact ⟨_, _, rfl, by decide, by decide⟩
  | @number number legible =>
      rw [written, writtenNumber_eq]
      cases number.negative with
      | true => exact ⟨_, _, rfl, by decide, by decide⟩
      | false =>
          obtain ⟨first, more, whole, decimal⟩ := legible.whole.eq_cons
          rw [writtenMagnitude, whole]
          refine ⟨_, _, rfl, isBlank_digit decimal, ?_⟩
          rintro rfl
          cases decimal

/-! ## Values without parts -/

theorem Value.reads_null : Value.null.Reads := by
  intro fuel rest enough ends
  cases fuel with
  | zero => cases enough
  | succ fuel => rfl

theorem Value.reads_bool (value : Bool) : (Value.bool value).Reads := by
  intro fuel rest enough ends
  cases fuel with
  | zero => cases value <;> cases enough
  | succ fuel => cases value <;> rfl

theorem Value.reads_text (text : String) : (Value.ofText text).Reads := by
  intro fuel rest enough ends
  have read := readString_escaped text rest
  simp only [ofText, written, writtenString, Option.getD_some, List.map_cons, List.map_append,
    List.map_nil, List.cons_append, List.append_assoc, List.nil_append, List.length_cons]
    at read enough ⊢
  cases fuel with
  | zero => omega
  | succ fuel =>
      rw [readValue, skipBlanks_cons (by decide)]
      simp only [read, Option.bind_eq_bind, Option.bind_some]

/-- What starts with a digit is read as a number. -/
theorem readValue_digit
    {digit : Char}
    (decimal : isDigit (some digit) = true) :
    readValue (fuel + 1) (some digit :: rest) =
      (readNumber false (some digit :: rest)).bind fun (number, rest) =>
        some (.number number, rest) := by
  have other : ∀ first ∈ ['"', '[', '\x7b', '-', 'n', 't', 'f'], digit ≠ first := by
    rintro first member rfl
    simp only [List.mem_cons, List.not_mem_nil, or_false] at member
    rcases member with rfl | rfl | rfl | rfl | rfl | rfl | rfl <;> cases decimal
  simp only [List.mem_cons, List.not_mem_nil, or_false, forall_eq_or_imp, forall_eq] at other
  rw [readValue, skipBlanks_cons (isBlank_digit decimal)]
  simp [other]

theorem Value.reads_number
    {number : Number}
    (legible : number.Legible) :
    (Value.number number).Reads := by
  intro fuel rest enough ends
  have read := readNumber_written legible ends
  obtain ⟨first, more, whole, decimal⟩ := legible.whole.eq_cons
  rw [written, writtenNumber_eq] at enough ⊢
  cases fuel with
  | zero =>
      simp only [writtenMagnitude, whole, List.length_append, List.length_cons] at enough
      omega
  | succ fuel =>
      cases negative : number.negative with
      | true =>
          rw [negative] at read
          simp only [if_true, List.cons_append, List.nil_append, List.map_cons]
          rw [readValue, skipBlanks_cons (by decide)]
          simp only [read, Option.bind_eq_bind, Option.bind_some]
      | false =>
          rw [negative] at read
          simp only [writtenMagnitude, whole, Bool.false_eq_true, ↓reduceIte, List.cons_append,
            List.nil_append, List.map_cons] at read ⊢
          rw [readValue_digit decimal, read, Option.bind_some]

/-! ## Arrays -/

theorem writtenElements_cons (element : Value) (others : List Value) :
    writtenElements (element :: others) =
      written element ++
        match others with
        | [] => [']']
        | _ :: _ => ',' :: writtenElements others := by
  cases others <;> simp only [writtenElements]

theorem readElements_written
    {elements : List Value}
    (reads : ∀ element ∈ elements, element.Reads)
    (inhabited : elements ≠ [])
    (enough : (writtenElements elements).length ≤ fuel) :
    readElements fuel ((writtenElements elements).map some ++ rest) = some (elements, rest) := by
  induction elements generalizing fuel with
  | nil => exact absurd rfl inhabited
  | cons element others later =>
      obtain ⟨first, remaining⟩ := List.forall_mem_cons.mp reads
      rw [writtenElements_cons, List.length_append] at enough
      rw [writtenElements_cons, List.map_append, List.append_assoc]
      cases others with
      | nil =>
          rw [List.length_singleton] at enough
          cases fuel with
          | zero => omega
          | succ fuel =>
              rw [List.map_singleton, List.singleton_append, readElements,
                first fuel _ (by omega) (ends_cons (by decide))]
              rfl
      | cons next others =>
          rw [List.length_cons] at enough
          cases fuel with
          | zero => omega
          | succ fuel =>
              have further := later remaining (List.cons_ne_nil _ _) (by omega : _ ≤ fuel)
              rw [List.map_cons, List.cons_append, readElements,
                first fuel _ (by omega) (ends_cons (by decide))]
              simp only [Option.bind_eq_bind, Option.bind_some, skipBlanks_comma, further]

theorem Value.reads_array
    {elements : List Value}
    (legible : ∀ element ∈ elements, element.Legible)
    (reads : ∀ element ∈ elements, element.Reads) :
    (Value.array elements).Reads := by
  intro fuel rest enough ends
  rw [written] at enough ⊢
  rw [List.length_cons] at enough
  cases fuel with
  | zero => omega
  | succ fuel =>
      rw [List.map_cons, List.cons_append, readValue, skipBlanks_cons (by decide)]
      cases elements with
      | nil => rfl
      | cons element others =>
          have read :
              readElements fuel ((writtenElements (element :: others)).map some ++ rest) =
                some (element :: others, rest) :=
            readElements_written reads (List.cons_ne_nil _ _) (Nat.le_of_succ_le_succ enough)
          obtain ⟨first, more, same, dark, other⟩ :=
            (legible element List.mem_cons_self).written_eq_cons
          rw [writtenElements_cons, same, List.cons_append, List.map_cons, List.cons_append]
            at read ⊢
          simp only [List.map_append, List.append_assoc] at read ⊢
          simp [skipBlanks_cons dark, other, read]

/-! ## Objects -/

/-- What is written for a member. -/
def writtenMember (key : String) (value : Value) : List Char :=
  writtenString key.toList ++ ':' :: written value

theorem writtenMembers_keyed (key : String) (value : Value) (others : List (String × Value)) :
    writtenMembers (keyed ((key, value) :: others)) =
      writtenMember key value ++
        match others with
        | [] => ['\x7d']
        | _ :: _ => ',' :: writtenMembers (keyed others) := by
  cases others <;>
    simp only [keyed, List.map_cons, List.map_nil, writtenMembers, writtenMember,
      Option.getD_some, List.append_assoc, List.cons_append]

/-- An object is written without blanks, its members in order. -/
theorem written_record (members : List (String × Value)) :
    written (.record members) =
      '\x7b' ::
        ([','].intercalate (members.map fun member => writtenMember member.1 member.2) ++
          ['\x7d']) := by
  change '\x7b' :: writtenMembers (keyed members) = _
  congr 1
  induction members with
  | nil => rfl
  | cons member others later =>
      obtain ⟨key, value⟩ := member
      rw [writtenMembers_keyed]
      cases others with
      | nil => simp
      | cons next others =>
          simp only [later, List.map_cons, List.intercalate_cons_cons, List.append_assoc,
            List.cons_append, List.nil_append]

/-- A member is read, and then what stands after it. -/
theorem readMembers_member
    (reads : value.Reads)
    (key : String)
    (enough : (writtenMember key value).length ≤ fuel)
    (ends : Ends rest) :
    readMembers (fuel + 1) ((writtenMember key value).map some ++ rest) =
      match skipBlanks rest with
      | some '\x7d' :: rest => some ([(some key, value)], rest)
      | some ',' :: rest =>
        (readMembers fuel rest).bind fun (members, rest) =>
          some ((some key, value) :: members, rest)
      | _ => none := by
  have named := readString_escaped key (some ':' :: ((written value).map some ++ rest))
  simp only [writtenMember, writtenString, List.length_append, List.length_cons, List.map_append,
    List.map_cons, List.append_assoc, List.cons_append, List.nil_append] at enough named ⊢
  have read := reads fuel rest (by omega) ends
  rw [readMembers, skipBlanks_cons (by decide)]
  simp only [Option.bind_eq_bind, Option.bind_some, named, skipBlanks_colon]
  exact congrArg (Option.bind · _) read

theorem readMembers_written
    {members : List (String × Value)}
    (reads : ∀ member ∈ members, member.2.Reads)
    (inhabited : members ≠ [])
    (enough : (writtenMembers (keyed members)).length ≤ fuel) :
    readMembers fuel ((writtenMembers (keyed members)).map some ++ rest) =
      some (keyed members, rest) := by
  induction members generalizing fuel with
  | nil => exact absurd rfl inhabited
  | cons member others later =>
      obtain ⟨key, value⟩ := member
      obtain ⟨first, remaining⟩ := List.forall_mem_cons.mp reads
      dsimp only at first
      rw [writtenMembers_keyed, List.length_append] at enough
      rw [writtenMembers_keyed, List.map_append, List.append_assoc]
      cases others with
      | nil =>
          rw [List.length_singleton] at enough
          cases fuel with
          | zero => omega
          | succ fuel =>
              rw [List.map_singleton, List.singleton_append,
                readMembers_member first key (by omega) (ends_cons (by decide))]
              rfl
      | cons next others =>
          rw [List.length_cons] at enough
          cases fuel with
          | zero => omega
          | succ fuel =>
              have further := later remaining (List.cons_ne_nil _ _) (by omega : _ ≤ fuel)
              rw [List.map_cons, List.cons_append,
                readMembers_member first key (by omega) (ends_cons (by decide)), skipBlanks_comma]
              simp only [further, Option.bind_some]
              rfl

theorem Value.reads_record
    {members : List (String × Value)}
    (reads : ∀ member ∈ members, member.2.Reads) :
    (Value.record members).Reads := by
  intro fuel rest enough ends
  change (written (.object (keyed members))).length ≤ fuel at enough
  change
    readValue fuel ((written (.object (keyed members))).map some ++ rest) =
      some (.object (keyed members), rest)
  rw [written] at enough ⊢
  rw [List.length_cons] at enough
  cases fuel with
  | zero => omega
  | succ fuel =>
      rw [List.map_cons, List.cons_append, readValue, skipBlanks_cons (by decide)]
      cases members with
      | nil => rfl
      | cons member others =>
          have read :
              readMembers fuel ((writtenMembers (keyed (member :: others))).map some ++ rest) =
                some (keyed (member :: others), rest) :=
            readMembers_written reads (List.cons_ne_nil _ _) (Nat.le_of_succ_le_succ enough)
          rw [writtenMembers_keyed, writtenMember, writtenString] at read ⊢
          simp only [List.cons_append, List.map_append, List.map_cons, List.append_assoc,
            List.nil_append] at read ⊢
          rw [skipBlanks_cons (by decide)]
          simp [read]

/-! ## Round trip -/

theorem Value.Legible.reads (legible : value.Legible) : value.Reads := by
  induction legible with
  | null => exact reads_null
  | bool value => exact reads_bool value
  | number legible => exact reads_number legible
  | text text => exact reads_text text
  | array legible reads => exact reads_array legible reads
  | record _ reads => exact reads_record reads

/-- Reading the text of a value gives the value back. -/
theorem parse?_render (legible : value.Legible) : parse? value.render = some value := by
  have read := legible.reads ((written value).length + 1) [] (Nat.le_succ _) ends_nil
  rw [List.append_nil] at read
  simp only [parse?, Value.render, ofSymbols?, String.toList_ofList, List.length_map, read]
  rfl

end ResumableUpload.Json
