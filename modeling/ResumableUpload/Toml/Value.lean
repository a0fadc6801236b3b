import ResumableUpload.Binary64

/-!
# TOML values

A document is a table.  While it is read, a table remembers how it came about (`Origin`), because
that decides whether later lines may add to it.
-/

namespace ResumableUpload.Toml

/-- How a table came about. -/
inductive Origin where
  /-- Written between braces; nothing is added to it. -/
  | inline
  /-- Named by a header of its own. -/
  | header
  /-- Only on the way to the table of a header. -/
  | implied
  /-- Only on the way to the value of a dotted key. -/
  | dotted
deriving DecidableEq, Repr

/-- A TOML value; a date or a time is kept as it is written. -/
inductive Value where
  | string (text : String)
  | integer (value : Int)
  | float (value : Binary64)
  | bool (value : Bool)
  | moment (written : String)
  | array (elements : List Value)
  | table (origin : Origin) (members : List (String × Value))
  /-- The tables of a header in double brackets. -/
  | rows (tables : List (List (String × Value)))

/-- The members of a table, in the order in which they came up. -/
abbrev Members := List (String × Value)

namespace Value

/-- The text of a string. -/
def text? : Value → Option String
  | .string text => some text
  | _ => none

/-- A natural number of at most `limit`. -/
def nat? (limit : Nat) : Value → Option Nat
  | .integer value => if 0 ≤ value ∧ value ≤ limit then some value.toNat else none
  | _ => none

/-- A binary64 number, which may be written as an integer. -/
def binary64? : Value → Option Binary64
  | .float value => some value
  | .integer value => some (.ofInt value)
  | _ => none

/-- The elements of an array. -/
def elements? : Value → Option (List Value)
  | .array elements => some elements
  | .rows tables => some (tables.map (.table .header))
  | _ => none

/--
The fields of a record with these names, each of which may be missing.  A record is a table, in
which other keys are ignored, or an array that begins with the fields in order.
-/
def fields? (names : List String) : Value → Option (List (Option Value))
  | .table _ members => some (names.map fun name => members.lookup name)
  | value => do
    let elements ← value.elements?
    return names.zipIdx.map fun (_, index) => elements[index]?

end Value

/-- The members with another value for a key that is there. -/
def Members.replace (members : Members) (key : String) (value : Value) : Members :=
  members.map fun member => if member.1 == key then (key, value) else member

/--
Gives a value to a dotted key, `path` being the parts before the last one.  A key is given a value
only once, and a dotted key adds to no table that a header or braces made.
-/
def Members.assign (key : String) (value : Value) : (path : List String) → Members → Option Members
  | [], members =>
    match members.lookup key with
    | none => some (members ++ [(key, value)])
    | some _ => none
  | name :: path, members =>
    match members.lookup name with
    | none => do
      let inner ← assign key value path []
      return members ++ [(name, .table .dotted inner)]
    | some (.table .dotted inner) => do
      return members.replace name (.table .dotted (← assign key value path inner))
    | some (.table .implied inner) =>
      if path = [] then none
      else do return members.replace name (.table .implied (← assign key value path inner))
    | some (.rows tables) =>
      match path, tables.getLast? with
      | _ :: _, some last => do
        return members.replace name (.rows (tables.dropLast ++ [← assign key value path last]))
      | _, _ => none
    | some _ => none

/--
Changes the table that a header path leads to, of an array of tables the last one.  Tables on the
way that are not there are implied.
-/
def Members.within (change : Members → Option Members) :
    (path : List String) → Members → Option Members
  | [], members => change members
  | name :: path, members =>
    match members.lookup name with
    | none => do return members ++ [(name, .table .implied (← within change path []))]
    | some (.table .inline _) => none
    | some (.table origin inner) => do
      return members.replace name (.table origin (← within change path inner))
    | some (.rows tables) =>
      match tables.getLast? with
      | some last => do
        return members.replace name (.rows (tables.dropLast ++ [← within change path last]))
      | none => none
    | some _ => none

/-- Opens the table of a header; only one that was implied may be there already. -/
def Members.openTable (key : String) (members : Members) : Option Members :=
  match members.lookup key with
  | none => some (members ++ [(key, .table .header [])])
  | some (.table .implied inner) => some (members.replace key (.table .header inner))
  | some _ => none

/-- Opens one more table of a header in double brackets. -/
def Members.openRow (key : String) (members : Members) : Option Members :=
  match members.lookup key with
  | none => some (members ++ [(key, .rows [[]])])
  | some (.rows tables) => some (members.replace key (.rows (tables ++ [[]])))
  | some _ => none

end ResumableUpload.Toml
