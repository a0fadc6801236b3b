import ResumableUpload.Disk

/-!
# Reads of local files

A local file is read as it is at the time of the read, within the size that it had when it was opened.
The system need not hand out all at once what it is asked for, so a buffer is filled read by read
(`LocalFile.Fills`).  However the reads are cut, a buffer that is filled has the bytes of the range, and
one that meets the end of the file before is an error (`LocalFile.fills_iff`): a file that shrank or
vanished gives no shorter range, and no other one (`LocalFile.range_reads_are_exact`).
-/

namespace ResumableUpload

variable {disk later : Disk} {workingDirectory : List String} {path : String}
variable {content bytes : Bytes} {first next last : Nat} {outcome : Except ReadError Bytes}

/-! ## Ranges of bytes -/

/-- Bytes are the range of a content from one position up to another. -/
structure Bytes.IsRange (content : Bytes) (first last : Nat) (bytes : Bytes) : Prop where
  length : bytes.length = last - first
  places : ∀ index < last - first, content[first + index]? = bytes[index]?

theorem Bytes.getElem?_slice
    (content : Bytes)
    (first last index : Nat) :
    (content.slice first last)[index]? =
      if index < last - first then content[first + index]? else none := by
  rw [slice, List.getElem?_take, List.getElem?_drop]

theorem Bytes.slice_append
    (ordered : first ≤ next)
    (further : next ≤ last) :
    content.slice first next ++ content.slice next last = content.slice first last := by
  obtain ⟨width, rfl⟩ := Nat.exists_eq_add_of_le ordered
  obtain ⟨rest, rfl⟩ := Nat.exists_eq_add_of_le further
  rw [slice, slice, slice, Nat.add_sub_cancel_left, Nat.add_sub_cancel_left, Nat.add_assoc,
    Nat.add_sub_cancel_left, List.take_add, List.drop_drop]

/-- A content has a range just if it reaches to the end of the range, or the range is empty. -/
theorem Bytes.isRange_iff :
    IsRange content first last bytes ↔
      (first < last → last ≤ content.length) ∧ bytes = content.slice first last := by
  constructor
  · intro range
    constructor
    · intro filled
      have inside : last - first - 1 < bytes.length := by
        rw [range.length]
        omega
      have place := range.places (last - first - 1) (by omega)
      rw [List.getElem?_eq_getElem inside, List.getElem?_eq_some_iff] at place
      have reached := place.1
      omega
    · apply List.ext_getElem?
      intro index
      rw [getElem?_slice]
      split
      case isTrue below => exact (range.places index below).symm
      case isFalse above =>
          apply List.getElem?_eq_none
          rw [range.length]
          exact Nat.le_of_not_lt above
  · rintro ⟨reaches, rfl⟩
    refine ⟨?_, fun index below => ?_⟩
    · rw [length_slice]
      omega
    · rw [getElem?_slice, if_pos below]

namespace LocalFile

/-! ## How a buffer is filled -/

/--
Filling a buffer with the range of a content from one position up to another.  Each read hands out some
of the bytes that are left, as many as it likes; it hands out nothing only at the end of the content,
and then a buffer that still has room is an error.
-/
inductive Fills (content : Bytes) : (first last : Nat) → Except ReadError Bytes → Prop where
  | full (position : Nat) : Fills content position position (.ok [])
  | ended
      {first last : Nat}
      (room : first < last)
      (nothing : content.length ≤ first) :
      Fills content first last (.error (.io "failed to fill whole buffer"))
  | handed
      {first next last : Nat}
      {outcome : Except ReadError Bytes}
      (some_ : first < next)
      (fits : next ≤ last)
      (held : next ≤ content.length)
      (rest : Fills content next last outcome) :
      Fills content first last (outcome.map (content.slice first next ++ ·))

/--
However much each read hands out, a buffer is filled with the range, if the content reaches to its end.
-/
theorem Fills.outcome_eq (fills : Fills content first last outcome) :
    outcome =
      if first < last ∧ content.length < last then .error (.io "failed to fill whole buffer")
      else .ok (content.slice first last) := by
  -- Both the end of the range and that of the content stay where they are while reads go on.
  induction fills with
  | full position => rw [if_neg (by omega), Bytes.slice, Nat.sub_self, List.take_zero]
  | ended room nothing => rw [if_pos (by omega)]
  | handed some_ fits held rest same =>
      rw [same]
      split
      case isTrue short =>
          rw [if_pos (by omega)]
          rfl
      case isFalse reaches =>
          rw [if_neg (by omega), Except.map, Bytes.slice_append (Nat.le_of_lt some_) fits]

/-- Some reads fill a buffer, or meet the end of the file. -/
theorem exists_fills
    (content : Bytes)
    (ordered : first ≤ last) :
    ∃ outcome, Fills content first last outcome := by
  rcases Nat.eq_or_lt_of_le ordered with rfl | room
  · exact ⟨_, .full first⟩
  · by_cases nothing : content.length ≤ first
    · exact ⟨_, .ended room nothing⟩
    · have some_ : first < content.length := Nat.lt_of_not_le nothing
      by_cases reaches : last ≤ content.length
      · exact ⟨_, .handed room (Nat.le_refl last) reaches (.full last)⟩
      · have short : content.length < last := Nat.lt_of_not_le reaches
        exact ⟨_, .handed some_ (Nat.le_of_lt short) (Nat.le_refl _)
          (.ended short (Nat.le_refl _))⟩

theorem fills_iff (ordered : first ≤ last) :
    Fills content first last outcome ↔
      (if first < last ∧ content.length < last then .error (.io "failed to fill whole buffer")
        else .ok (content.slice first last)) = outcome := by
  constructor
  · intro fills
    exact fills.outcome_eq.symm
  · rintro rfl
    obtain ⟨outcome, fills⟩ := exists_fills content ordered
    rwa [← fills.outcome_eq]

/-! ## Opening and reading -/

/-- Just what contains bytes can be opened, and then its size is kept. -/
theorem openPath_eq_ok_iff {file : LocalFile} :
    openPath disk workingDirectory path = .ok file ↔
      ∃ content,
        disk.fileContent workingDirectory path = .ok content ∧ file = ⟨path, content.length⟩ := by
  unfold openPath Disk.fileContent
  cases disk.find workingDirectory path with
  | error fault => simp [bind, Except.bind]
  | ok node =>
      cases node with
      | directory => simp [bind, Except.bind]
      | file content => simp [bind, Except.bind, eq_comm]

variable {file : LocalFile}

theorem read_outside
    (outside : last < first ∨ file.size < last)
    (now : Except Disk.Fault Bytes) :
    file.readRange now first last = .error (.outOfRange first last file.size) := by
  unfold readRange
  rw [Source.checkRange_of_outside outside]
  rfl

theorem read_vanished
    (ordered : first ≤ last)
    (within : last ≤ file.size)
    (fault : Disk.Fault) :
    file.readRange (.error fault) first last = .error (.io fault.message) := by
  unfold readRange
  rw [Source.checkRange_of_within ordered within]
  rfl

/-- A range within the size at opening is read as a buffer is filled. -/
theorem read_eq_iff_fills
    (ordered : first ≤ last)
    (within : last ≤ file.size) :
    file.readRange (.ok content) first last = outcome ↔ Fills content first last outcome := by
  unfold readRange
  rw [Source.checkRange_of_within ordered within, fills_iff ordered]
  rfl

theorem read_eq_ok_iff
    (ordered : first ≤ last)
    (within : last ≤ file.size) :
    file.readRange (.ok content) first last = .ok bytes ↔ content.IsRange first last bytes := by
  rw [read_eq_iff_fills ordered within, fills_iff ordered, Bytes.isRange_iff]
  split
  case isTrue short =>
      have lacks : ¬ (first < last → last ≤ content.length) := by omega
      exact ⟨nofun, fun range => absurd range.1 lacks⟩
  case isFalse reached =>
      have reaches : first < last → last ≤ content.length := by omega
      rw [Except.ok.injEq, and_iff_right reaches, eq_comm]

/-- A file that still has its bytes is read like the bytes in memory. -/
theorem read_unchanged
    (size : file.size = content.length)
    (first last : Nat) :
    file.readRange (.ok content) first last = (Source.ofBytes content).read first last := by
  by_cases outside : last < first ∨ content.length < last
  · rw [read_outside (size.symm ▸ outside), size]
    simp only [Source.ofBytes, Source.checkRange_of_outside outside]
    rfl
  · have ordered : first ≤ last := by omega
    have within : last ≤ content.length := by omega
    have reaches : ¬ (first < last ∧ content.length < last) := by omega
    rw [read_eq_iff_fills ordered (size.symm ▸ within), fills_iff ordered, if_neg reaches]
    simp only [Source.ofBytes, Source.checkRange_of_within ordered within]
    rfl

/--
A file that is opened keeps its size.  A range beyond it, or backwards, is refused, whatever has become
of the file.  Every other read is that of a buffer that is filled, however much is handed out at once:
it succeeds just with the bytes that the file now has at the places of the range, fails if the file
does not reach so far, and fails if nothing is there any more.  As long as the file has its bytes, every
range is read as it would be from memory.
-/
theorem range_reads_are_exact
    (contains : disk.fileContent workingDirectory path = .ok content) :
    ∃ file,
      openPath disk workingDirectory path = .ok file ∧
        ∀ (later : Disk) (first last : Nat),
          let read := (file.source later workingDirectory).read first last
          (last < first ∨ content.length < last →
              read = .error (.outOfRange first last content.length)) ∧
            (first ≤ last → last ≤ content.length →
              (∀ now, later.fileContent workingDirectory path = .ok now →
                (∀ outcome, read = outcome ↔ Fills now first last outcome) ∧
                  (∀ bytes, read = .ok bytes ↔ now.IsRange first last bytes) ∧
                  (first < last → now.length < last →
                    read = .error (.io "failed to fill whole buffer"))) ∧
                ∀ fault, later.find workingDirectory path = .error fault →
                  read = .error (.io fault.message)) ∧
            (later.fileContent workingDirectory path = .ok content →
              read = (Source.ofBytes content).read first last) := by
  refine ⟨⟨path, content.length⟩, openPath_eq_ok_iff.mpr ⟨content, contains, rfl⟩, ?_⟩
  intro later first last
  refine ⟨fun outside => read_outside outside _, fun ordered within => ⟨?_, ?_⟩, ?_⟩
  · intro now holds
    simp only [source, holds]
    refine ⟨fun outcome => read_eq_iff_fills ordered within,
      fun bytes => read_eq_ok_iff ordered within, fun room short => ?_⟩
    exact (read_eq_iff_fills ordered within).mpr ((fills_iff ordered).mpr (if_pos ⟨room, short⟩))
  · intro fault vanished
    have gone : later.fileContent workingDirectory path = .error fault := by
      rw [Disk.fileContent, vanished]
      rfl
    simp only [source, gone]
    exact read_vanished ordered within fault
  · intro unchanged
    simp only [source, unchanged]
    exact read_unchanged rfl first last

/-- A file of three bytes shrinks to two others: what it has left is read, and no more. -/
theorem shrunk_file_is_read :
    let disk : Disk := ⟨[(["a"], .file [1, 2, 3])]⟩
    let later : Disk := ⟨[(["a"], .file [4, 5])]⟩
    disk.fileContent [] "a" = .ok [1, 2, 3] ∧ later.fileContent [] "a" = .ok [4, 5] ∧
      ∃ file,
        openPath disk [] "a" = .ok file ∧
          (file.source later []).read 1 2 = .ok [5] ∧
          (file.source later []).read 1 3 = .error (.io "failed to fill whole buffer") ∧
          (file.source later []).read 2 4 = .error (.outOfRange 2 4 3) ∧
          (file.source disk []).read 1 3 = (Source.ofBytes [1, 2, 3]).read 1 3 := by
  intro disk later
  have contains : disk.fileContent [] "a" = .ok [1, 2, 3] := rfl
  have holds : later.fileContent [] "a" = .ok [4, 5] := rfl
  obtain ⟨file, opened, reads⟩ := range_reads_are_exact contains
  obtain ⟨_, inside, _⟩ := reads later 1 2
  obtain ⟨_, short, _⟩ := reads later 1 3
  obtain ⟨outside, _, _⟩ := reads later 2 4
  obtain ⟨_, _, unchanged⟩ := reads disk 1 3
  have range : Bytes.IsRange [4, 5] 1 2 [5] := ⟨by decide, by decide⟩
  refine ⟨contains, holds, file, opened, ?_, ?_, outside (by decide), unchanged contains⟩
  · exact (((inside (by decide) (by decide)).1 _ holds).2.1 _).mpr range
  · exact ((short (by decide) (by decide)).1 _ holds).2.2 (by decide) (by decide)

end LocalFile

end ResumableUpload
