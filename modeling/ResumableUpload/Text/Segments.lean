/-!
# Segments

Paths, local and remote, are texts of segments with slashes between them.
-/

namespace ResumableUpload.Text

/-- The pieces between slashes, the empty ones too. -/
def segments : List Char → List (List Char)
  | [] => [[]]
  | character :: rest =>
    if character = '/' then [] :: segments rest
    else
      match segments rest with
      | [] => [[character]]
      | segment :: others => (character :: segment) :: others

/-- A text without the slashes at its end. -/
def trimSlashesRight (characters : List Char) : List Char :=
  (characters.reverse.dropWhile (· == '/')).reverse

/-- A text without the slashes at its beginning and its end. -/
def trimSlashes (characters : List Char) : List Char :=
  trimSlashesRight (characters.dropWhile (· == '/'))

end ResumableUpload.Text
