import ResumableUpload.CommandLine.Destination
import ResumableUpload.Proofs.RemotePath

/-!
# Remote paths of local files

The name of a local file is a segment that leads somewhere.  Behind a directory it makes a remote path
of which it is the last segment, so different names make different paths.  The other segments are those
of the directory, less the empty ones at its ends: a file can be queued under the path just if none of
them leads up, and there is no NUL in the directory or the name.
-/

namespace ResumableUpload

open ResumableUpload.Text

variable {directory file name other : String}

/-! ## The name of a local file -/

/-- What holds of the name of a local file. -/
structure LocalPath.Name (file name : String) : Prop where
  nonempty : name.toList ≠ []
  ascends : name.toList ≠ ['.', '.']
  whole : '/' ∉ name.toList
  among : ∀ character ∈ name.toList, character ∈ file.toList

theorem LocalPath.name_of_fileName? (named : fileName? file = some name) : Name file name := by
  unfold fileName? at named
  split at named
  case h_1 => cases named
  case h_2 ascends =>
      obtain ⟨member, step⟩ := List.mem_filter.mp (List.mem_of_getLast? named)
      obtain ⟨segment, part, rfl⟩ := List.mem_map.mp member
      simp only [isStep, Bool.and_eq_true, bne_iff_ne] at step
      refine ⟨?_, ?_, ?_, ?_⟩
      · intro empty
        rw [String.toList_ofList] at empty
        exact step.1 (congrArg String.ofList empty)
      · intro up
        rw [String.toList_ofList] at up
        exact ascends (named.trans (congrArg (some ∘ String.ofList) up))
      · intro slash
        rw [String.toList_ofList] at slash
        exact (mem_of_mem_segments part slash).2 rfl
      · intro character inside
        rw [String.toList_ofList] at inside
        exact (mem_of_mem_segments part inside).1

/-! ## Where it goes -/

namespace CommandLine

theorem toList_remotePath (directory name : String) :
    (remotePath directory name).toList =
      match trimSlashes directory.toList with
      | [] => name.toList
      | trimmed => trimmed ++ '/' :: name.toList := by
  unfold remotePath
  split <;> simp_all

/-- Different names make different paths. -/
theorem remotePath_inj (same : remotePath directory name = remotePath directory other) :
    name = other := by
  have characters := congrArg String.toList same
  rw [toList_remotePath, toList_remotePath] at characters
  apply String.toList_inj.mp
  split at characters
  · exact characters
  · exact (List.cons.inj (List.append_cancel_left characters)).2

/-! ## What a destination is made of -/

theorem mem_remotePath_iff
    {character : Char}
    (differs : character ≠ '/') :
    character ∈ (remotePath directory name).toList ↔
      character ∈ directory.toList ∨ character ∈ name.toList := by
  have trimmed := trimmed_trimSlashes directory.toList
  rw [toList_remotePath, ← trimmed.mem_iff differs]
  split
  case h_1 nothing => simp [nothing]
  case h_2 => simp [differs]

theorem segments_remotePath
    (whole : '/' ∉ name.toList) :
    segments (remotePath directory name).toList =
      match trimSlashes directory.toList with
      | [] => [name.toList]
      | core => segments core ++ [name.toList] := by
  rw [toList_remotePath]
  split
  case h_1 => exact segments_eq_singleton whole
  case h_2 => rw [segments_append, segments_eq_singleton whole]

theorem mem_segments_remotePath_iff
    {segment : List Char}
    (whole : '/' ∉ name.toList)
    (nonempty : segment ≠ []) :
    segment ∈ segments (remotePath directory name).toList ↔
      segment ∈ segments directory.toList ∨ segment = name.toList := by
  have trimmed := trimmed_trimSlashes directory.toList
  rw [segments_remotePath whole, ← trimmed.mem_segments_iff nonempty]
  split
  case h_1 nothing => simp [nothing, segments, nonempty]
  case h_2 => simp

/-- The name is the last segment of the destination. -/
theorem getLast?_segments_remotePath
    (whole : '/' ∉ name.toList) :
    (segments (remotePath directory name).toList).getLast? = some name.toList := by
  rw [segments_remotePath whole]
  split
  case h_1 => rfl
  case h_2 => exact List.getLast?_concat

theorem head?_remotePath
    (whole : '/' ∉ name.toList) :
    (remotePath directory name).toList.head? ≠ some '/' := by
  have trimmed := trimmed_trimSlashes directory.toList
  rw [toList_remotePath]
  split
  case h_1 => exact fun slash => whole (List.mem_of_head? slash)
  case h_2 beyond =>
      rw [List.head?_append_of_ne_nil _ beyond]
      exact trimmed.opens

theorem getLast?_segments_remotePath_ne
    (nonempty : name.toList ≠ [])
    (whole : '/' ∉ name.toList) :
    (segments (remotePath directory name).toList).getLast? ≠ some [] := by
  rw [getLast?_segments_remotePath whole]
  exact fun empty => nonempty (Option.some.inj empty)

/--
A local file can be queued where it goes, just if no segment of the directory leads up and there is no
NUL in the directory or the name.
-/
theorem fault?_remotePath_eq_none_iff (named : LocalPath.fileName? file = some name) :
    RemotePath.fault? (remotePath directory name) = none ↔
      ['.', '.'] ∉ segments directory.toList ∧
        '\x00' ∉ directory.toList ∧ '\x00' ∉ name.toList := by
  obtain ⟨nonempty, ascends, whole, _⟩ := LocalPath.name_of_fileName? named
  have ends : (segments (remotePath directory name).toList).getLast? ≠ some [] :=
    getLast?_segments_remotePath_ne nonempty whole
  have begins : (segments (remotePath directory name).toList).head? ≠ some [] := by
    rw [Ne, head?_segments_eq_nil_iff, not_or]
    refine ⟨fun nothing => ?_, head?_remotePath whole⟩
    exact ends (getLast?_segments_eq_nil_iff.mpr (.inl nothing))
  rw [RemotePath.fault?_eq_none_iff, mem_remotePath_iff (by decide),
    mem_segments_remotePath_iff whole (by decide), not_or, not_or]
  constructor
  · rintro ⟨⟨clean, printable⟩, ⟨level, _⟩, _⟩
    exact ⟨level, clean, printable⟩
  · rintro ⟨level, clean, printable⟩
    exact ⟨⟨clean, printable⟩, ⟨level, ascends.symm⟩, begins, ends⟩

/-- A destination is the name alone, or follows what is left of the directory and a slash. -/
theorem remotePath_of_trimmed
    (directory name : String) :
    ((∀ character ∈ directory.toList, character = '/') → remotePath directory name = name) ∧
      ((∃ character ∈ directory.toList, character ≠ '/') →
        ∃ core, Trimmed directory.toList core ∧
          remotePath directory name = String.ofList core ++ "/" ++ name) := by
  have trimmed := trimmed_trimSlashes directory.toList
  constructor
  · intro only
    rw [remotePath, trimmed.eq_nil_iff.mpr only]
  · rintro ⟨character, member, differs⟩
    have beyond : trimSlashes directory.toList ≠ [] := fun nothing =>
      differs (trimmed.eq_nil_iff.mp nothing character member)
    refine ⟨_, trimmed, ?_⟩
    apply String.toList_inj.mp
    rw [toList_remotePath]
    split
    case h_1 nothing => exact absurd nothing beyond
    case h_2 => simp [String.toList_append, String.toList_ofList]

/--
A local file goes to the remote path that ends in its name.  Slashes around the directory do not count:
without a directory the path is the name alone, and otherwise a slash stands between what is left of
the directory and the name.  The path neither begins nor ends with a slash, and it is accepted just if
no segment of the directory leads up and neither the directory nor the name has a NUL.
-/
theorem destination_of_named_file
    (named : LocalPath.fileName? file = some name)
    (directory : String) :
    ∃ path,
      remotePathOf directory file = .ok path ∧
        ((∀ character ∈ directory.toList, character = '/') → path = name) ∧
        ((∃ character ∈ directory.toList, character ≠ '/') →
          ∃ core, Trimmed directory.toList core ∧ path = String.ofList core ++ "/" ++ name) ∧
        path.toList.head? ≠ some '/' ∧ path.toList.getLast? ≠ some '/' ∧
        (segments path.toList).getLast? = some name.toList ∧
        (RemotePath.check path = .ok () ↔
          ['.', '.'] ∉ segments directory.toList ∧
            '\x00' ∉ directory.toList ∧ '\x00' ∉ name.toList) := by
  obtain ⟨nonempty, _, whole, _⟩ := LocalPath.name_of_fileName? named
  obtain ⟨alone, behind⟩ := remotePath_of_trimmed directory name
  refine ⟨remotePath directory name, ?_, alone, behind, head?_remotePath whole, ?_,
    getLast?_segments_remotePath whole, ?_⟩
  · simp only [remotePathOf, named]
  · intro slash
    exact getLast?_segments_remotePath_ne nonempty whole
      (getLast?_segments_eq_nil_iff.mpr (.inr slash))
  · rw [RemotePath.check_eq_ok, fault?_remotePath_eq_none_iff named]

/-- The slashes around a directory and inside it: only those around it do not count. -/
theorem file_behind_slashes :
    LocalPath.fileName? "home/./b.txt" = some "b.txt" ∧
      remotePathOf "//in//2024/" "home/./b.txt" = .ok "in//2024/b.txt" ∧
      RemotePath.check "in//2024/b.txt" = .ok () := by
  have named : LocalPath.fileName? "home/./b.txt" = some "b.txt" := by decide
  have goes : remotePathOf "//in//2024/" "home/./b.txt" = .ok "in//2024/b.txt" := rfl
  obtain ⟨path, same, _, _, _, _, _, accepted⟩ := destination_of_named_file named "//in//2024/"
  cases goes.symm.trans same
  exact ⟨named, goes, accepted.mpr (by decide)⟩

end CommandLine

end ResumableUpload
