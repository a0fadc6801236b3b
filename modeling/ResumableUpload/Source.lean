import ResumableUpload.Bytes

/-!
# Sources

An upload reads its bytes from a source: a size that is fixed when the source is opened, and reads
of byte ranges.  `Source.ofBytes` is a source in memory.  A `FileHandle` is a source with an
identity: two handles are the same only if they were opened as one.
-/

namespace ResumableUpload

/-- Why a range of a source could not be read, or a local file not opened. -/
inductive ReadError where
  | io (reason : String)
  | invalidPath (reason : String)
  | outOfRange (first last size : Nat)
  | interrupted (reason : String)
deriving DecidableEq, Repr

/-- The wording of a read error. -/
def ReadError.message : ReadError → String
  | .io reason => "I/O error: " ++ reason
  | .invalidPath reason => "invalid path: " ++ reason
  | .outOfRange first last size =>
    "range " ++ toString first ++ ".." ++ toString last ++ " outside file of " ++ toString size ++
      " bytes"
  | .interrupted reason => "read task failed: " ++ reason

/-- A file that an upload can read from. -/
structure Source where
  size : Nat
  read : (first last : Nat) → Except ReadError Bytes

namespace Source

/-- Accepts the ranges that lie within `size` bytes. -/
def checkRange (first last size : Nat) : Except ReadError Unit :=
  if last < first ∨ size < last then .error (.outOfRange first last size) else .ok ()

theorem checkRange_of_within
    {first last size : Nat}
    (ordered : first ≤ last)
    (within : last ≤ size) :
    checkRange first last size = .ok () :=
  if_neg (by omega)

theorem checkRange_of_outside
    {first last size : Nat}
    (outside : last < first ∨ size < last) :
    checkRange first last size = .error (.outOfRange first last size) :=
  if_pos outside

/-- The source that holds these bytes. -/
def ofBytes (bytes : Bytes) : Source where
  size := bytes.length
  read first last := do
    checkRange first last bytes.length
    return bytes.slice first last

/-- The source of a given size whose bytes are computed from their positions. -/
def generated (size : Nat) (byteAt : Nat → UInt8) : Source where
  size := size
  read first last := do
    checkRange first last size
    return (List.range (last - first)).map fun index => byteAt (first + index)

/-- Such a source is one that holds these bytes. -/
theorem generated_eq_ofBytes
    (size : Nat)
    (byteAt : Nat → UInt8) :
    generated size byteAt = ofBytes ((List.range size).map byteAt) := by
  have bytes : ∀ first last, last ≤ size →
      Bytes.slice ((List.range size).map byteAt) first last =
        (List.range (last - first)).map fun index => byteAt (first + index) := by
    intro first last within
    refine List.ext_getElem ?_ fun index here there => ?_
    · simp only [Bytes.slice, List.length_take, List.length_drop, List.length_map,
        List.length_range]
      omega
    · simp only [Bytes.slice, List.getElem_take, List.getElem_drop, List.getElem_map,
        List.getElem_range]
  unfold generated ofBytes
  rw [List.length_map, List.length_range]
  congr 1
  funext first last
  by_cases outside : last < first ∨ size < last
  · rw [checkRange_of_outside outside]
    rfl
  · rw [checkRange_of_within (by omega) (by omega), bytes first last (by omega)]

/--
A source whose reads past `limit` fail with `error`.  It answers every other read with the bytes at
the positions asked for, be they within its size or not.
-/
def failingPast (size limit : Nat) (byteAt : Nat → UInt8) (error : Nat → Nat → ReadError) :
    Source where
  size := size
  read first last :=
    if limit < last then .error (error first last)
    else .ok ((List.range (last - first)).map fun index => byteAt (first + index))

/-- Within its size it reads as a source that does not fail, up to its limit. -/
theorem read_failingPast
    {size first last : Nat}
    (limit : Nat)
    (byteAt : Nat → UInt8)
    (error : Nat → Nat → ReadError)
    (ordered : first ≤ last)
    (within : last ≤ size) :
    (failingPast size limit byteAt error).read first last =
      if limit < last then .error (error first last)
      else (generated size byteAt).read first last := by
  simp only [failingPast, generated, checkRange_of_within ordered within]
  rfl

end Source

/-- A source with an identity. -/
structure FileHandle where
  identity : Nat
  source : Source

/-- The size of the file when it was opened. -/
def FileHandle.size (handle : FileHandle) : Nat :=
  handle.source.size

end ResumableUpload
