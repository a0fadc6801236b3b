/-!
# Bytes

File contents, stored uploads and chunks are lists of bytes, so that prefixes, slices and
concatenations are the list library's.  `slice first last` is the byte range `[first, last)`.
-/

namespace ResumableUpload

/-- A sequence of bytes. -/
abbrev Bytes := List UInt8

namespace Bytes

/-- The UTF-8 encoding of a text. -/
def ofText (text : String) : Bytes :=
  text.toUTF8.toList

/-- The text that these bytes encode in UTF-8, if they do. -/
def toText? (bytes : Bytes) : Option String :=
  String.fromUTF8? (ByteArray.mk bytes.toArray)

/-- The bytes from position `first` up to, and not including, position `last`. -/
def slice (bytes : Bytes) (first last : Nat) : Bytes :=
  (bytes.drop first).take (last - first)

@[simp]
theorem length_slice (bytes : Bytes) (first last : Nat) :
    (slice bytes first last).length = min (last - first) (bytes.length - first) := by
  simp [slice]

theorem slice_append_drop {bytes : Bytes} {first last : Nat} (ordered : first ≤ last) :
    slice bytes first last ++ bytes.drop last = bytes.drop first := by
  obtain ⟨width, rfl⟩ := Nat.exists_eq_add_of_le ordered
  rw [slice, Nat.add_sub_cancel_left, ← List.drop_drop, List.take_append_drop]

end Bytes

end ResumableUpload
