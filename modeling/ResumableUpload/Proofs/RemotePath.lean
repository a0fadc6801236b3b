import ResumableUpload.Proofs.Text.Segments
import ResumableUpload.RemotePath

/-!
# Where a remote path leads

Whoever resolves a remote path begins at the root of the endpoint and goes from segment to segment:
an empty one and `.` stay where they are, `..` goes back, and every other one is the name of what is
entered.  `place?` is where this ends, unless it leaves the root on the way.

An accepted path has no segment that goes back, so it stays below the root, and it does not end in an
empty segment (`fault?_eq_none_iff`).  But the last segment may be `.`: such a path leads to a
directory, and even to the root (`root_is_accepted`).  Every other accepted path leads to the file
that its last segment names.
-/

namespace ResumableUpload.RemotePath

open ResumableUpload.Text

variable {path : String} {segments : List (List Char)}

/-- Whether a segment can name what is entered. -/
def isName (segment : List Char) : Bool :=
  segment ≠ [] && segment ≠ ['.'] && segment ≠ ['.', '.']

/--
Where a segment leads from a place, which is given by the names on the way there; nothing if it leads
above the root.
-/
def enter? (place : List (List Char)) (segment : List Char) : Option (List (List Char)) :=
  if segment = [] ∨ segment = ['.'] then some place
  else if segment = ['.', '.'] then
    if place = [] then none else some place.dropLast
  else some (place ++ [segment])

/-- Where a path leads from the root; nothing if it leaves the root on the way. -/
def place? (path : String) : Option (List (List Char)) :=
  (Text.segments path.toList).foldlM enter? []

theorem enter?_of_level
    {segment : List Char}
    (level : segment ≠ ['.', '.'])
    (place : List (List Char)) :
    enter? place segment = some (place ++ [segment].filter isName) := by
  unfold enter?
  by_cases stays : segment = [] ∨ segment = ['.']
  · rcases stays with rfl | rfl <;> simp [isName]
  · rw [if_neg stays, if_neg level]
    rw [not_or] at stays
    simp [isName, stays, level]

/-- If no segment goes back, all the others are entered one after the other. -/
theorem foldlM_enter?_of_level
    (level : ['.', '.'] ∉ segments)
    (place : List (List Char)) :
    segments.foldlM enter? place = some (place ++ segments.filter isName) := by
  induction segments generalizing place with
  | nil => simp
  | cons segment rest led =>
      rw [List.mem_cons, not_or] at level
      obtain ⟨here, later⟩ := level
      rw [List.foldlM_cons, enter?_of_level (Ne.symm here)]
      change rest.foldlM enter? _ = _
      rw [led later, List.append_assoc, ← List.filter_append, List.singleton_append]

/-- What a path must be like to be accepted. -/
theorem fault?_eq_none_iff :
    fault? path = none ↔
      '\x00' ∉ path.toList ∧ ['.', '.'] ∉ Text.segments path.toList ∧
        (Text.segments path.toList).head? ≠ some [] ∧
        (Text.segments path.toList).getLast? ≠ some [] := by
  rw [Ne, Ne, head?_segments_eq_nil_iff, getLast?_segments_eq_nil_iff]
  unfold fault?
  grind

/-- The paths that are accepted are those without a fault. -/
@[simp]
theorem check_eq_ok : check path = .ok () ↔ fault? path = none := by
  unfold check
  split
  case h_1 fault found => simp [found]
  case h_2 found => simp [found]

/--
A path that is accepted never leads out of the root, and just if its last segment is not `.` it leads
to a place below the root that is called like its last segment, which can name a file.  Conversely a
path is accepted if it has no NUL and no segment `..` and neither its first segment nor its last one is
empty, be the last one `.` or not.
-/
theorem accepted_path_names_file (path : String) :
    (fault? path = none →
      ∃ place last,
        place? path = some place ∧ (Text.segments path.toList).getLast? = some last ∧
          (last ≠ ['.'] ↔ isName last = true ∧ ∃ directory, place = directory ++ [last])) ∧
      ('\x00' ∉ path.toList →
        ['.', '.'] ∉ Text.segments path.toList →
          (Text.segments path.toList).head? ≠ some [] →
            (Text.segments path.toList).getLast? ≠ some [] →
              fault? path = none) := by
  constructor
  · intro accepted
    obtain ⟨_, level, _, ends⟩ := fault?_eq_none_iff.mp accepted
    obtain ⟨before, last, parts, _⟩ := exists_last_segment path.toList
    rw [parts, List.getLast?_concat] at ends ⊢
    refine ⟨_, last, foldlM_enter?_of_level level [], rfl, ?_⟩
    have nonempty : last ≠ [] := fun empty => ends (congrArg some empty)
    have ascends : last ≠ ['.', '.'] := by
      rintro rfl
      exact level (parts ▸ List.mem_append_right _ (List.mem_singleton_self _))
    constructor
    · intro named
      have name : isName last = true := by simp [isName, nonempty, named, ascends]
      refine ⟨name, before.filter isName, ?_⟩
      rw [parts, List.filter_append, List.nil_append, List.filter_singleton, name, cond_true]
    · rintro ⟨name, _⟩ rfl
      cases name
  · intro printed level begins ends
    exact fault?_eq_none_iff.mpr ⟨printed, level, begins, ends⟩

/-- A file two levels below the root, through segments that stay. -/
theorem file_behind_idle_segments :
    fault? "a/.//b" = none ∧ place? "a/.//b" = some [['a'], ['b']] ∧
      ∃ directory, [['a'], ['b']] = directory ++ [['b']] := by
  obtain ⟨leads, admits⟩ := accepted_path_names_file "a/.//b"
  have accepted : fault? "a/.//b" = none :=
    admits (by decide) (by decide) (by decide) (by decide)
  obtain ⟨place, last, led, ends, names⟩ := leads accepted
  have here : place? "a/.//b" = some [['a'], ['b']] := by decide
  have named : (Text.segments "a/.//b".toList).getLast? = some ['b'] := by decide
  obtain rfl := Option.some.inj (led.symm.trans here)
  obtain rfl := Option.some.inj (ends.symm.trans named)
  exact ⟨accepted, here, (names.mp (by decide)).2⟩

/-- The root itself is accepted, and so is a directory, though neither names a file. -/
theorem root_is_accepted :
    (fault? "." = none ∧ place? "." = some []) ∧
      fault? "a/." = none ∧ place? "a/." = some [['a']] ∧
        (Text.segments "a/.".toList).getLast? = some ['.'] := by
  decide

end ResumableUpload.RemotePath
