import ResumableUpload.Bytes
import ResumableUpload.Json.Number

/-!
# JSON values

A value as it is written: members of objects keep their order and may repeat a key.  A string whose
escapes or bytes are not those of a text can be read over, but has no text.
-/

namespace ResumableUpload.Json

/-- A JSON value. -/
inductive Value where
  | null
  | bool (value : Bool)
  | number (value : Number)
  | string (text : Option String)
  | array (elements : List Value)
  | object (members : List (Option String × Value))

namespace Value

/-- The string value of a text. -/
def ofText (text : String) : Value :=
  .string (some text)

/-- The value of a natural number. -/
def ofNat (value : Nat) : Value :=
  .number (.ofNat value)

/-- An object with these members. -/
def record (members : List (String × Value)) : Value :=
  .object (members.map fun (key, value) => (some key, value))

/-- The text of a string. -/
def text? : Value → Option String
  | .string text => text
  | _ => none

/-- A natural number of at most `limit`. -/
def nat? (limit : Nat) : Value → Option Nat
  | .number written => written.toNat? limit
  | _ => none

/-- A number of sixty-four bits. -/
def word? : Value → Option Nat :=
  nat? largestWord

/-- A binary64 number. -/
def binary64? : Value → Option Binary64
  | .number written => written.toBinary64?
  | _ => none

/-- The elements of an array. -/
def elements? : Value → Option (List Value)
  | .array elements => some elements
  | _ => none

/-- The value of a key that stands at most once; the outer `none` if it stands more often. -/
def unique? {α : Type} (key : String) (members : List (String × α)) : Option (Option α) :=
  match members.filter (·.1 == key) with
  | [] => some none
  | [(_, value)] => some (some value)
  | _ => none

/--
The fields of a record with these names, each of which may be missing.  A record is an object, in
which other keys are ignored and a named one must not stand twice, or an array of the fields in
order, of which last ones may be missing.
-/
def fields? (names : List String) : Value → Option (List (Option Value))
  | .object members => do
    let members ← members.mapM fun (key, value) => key.map (·, value)
    names.mapM fun name => unique? name members
  | .array elements =>
    if names.length < elements.length then none
    else some (elements.map some ++ List.replicate (names.length - elements.length) none)
  | _ => none

end Value

end ResumableUpload.Json
