import Mathlib.Data.List.DropRight
import ResumableUpload.Text.Segments

/-!
# Segments of a text

The segments of a text are what it is split into at its slashes.  Slashes that are trimmed from the
ends of a text only take empty segments away.
-/

namespace ResumableUpload.Text

variable {characters first later segment : List Char} {character : Char}

theorem segments_eq_splitOn (characters : List Char) :
    segments characters = characters.splitOn '/' := by
  induction characters with
  | nil => rfl
  | cons character rest same =>
      rw [segments, List.splitOn_cons_eq_if_modifyHead, same]
      by_cases slash : character = '/'
      · rw [if_pos slash, if_pos (beq_iff_eq.mpr slash)]
      · rw [if_neg slash, if_neg (by simpa using slash)]
        cases parts : rest.splitOn '/' with
        | nil => exact absurd parts (List.splitOn_ne_nil _ _)
        | cons segment others => rfl

theorem segments_append (first later : List Char) :
    segments (first ++ '/' :: later) = segments first ++ segments later := by
  simp only [segments_eq_splitOn, List.splitOn_append_cons_self]

theorem segments_eq_singleton (whole : '/' ∉ characters) :
    segments characters = [characters] := by
  rw [segments_eq_splitOn, List.splitOn_eq_singleton whole]

theorem segments_ne_nil (characters : List Char) : segments characters ≠ [] := by
  rw [segments_eq_splitOn]
  exact List.splitOn_ne_nil _ _

theorem head?_segments_eq_nil_iff :
    (segments characters).head? = some [] ↔ characters = [] ∨ characters.head? = some '/' := by
  cases characters with
  | nil => simp [segments]
  | cons character rest =>
      unfold segments
      by_cases slash : character = '/'
      · simp [slash]
      · cases parts : segments rest with
        | nil => simp [slash]
        | cons opening others => simp [slash]

/-- The last segment is what follows the last slash, or the whole text if it has none. -/
theorem exists_last_segment (characters : List Char) :
    ∃ before last,
      segments characters = before ++ [last] ∧ '/' ∉ last ∧
        (characters = last ∨ ∃ front, characters = front ++ '/' :: last) := by
  by_cases slash : '/' ∈ characters
  · obtain ⟨after, front, reversed, whole⟩ :=
      List.eq_append_cons_of_mem (List.mem_reverse.mpr slash)
    have parted : characters = front.reverse ++ '/' :: after.reverse := by
      rw [← List.reverse_inj, reversed]
      simp
    have single : '/' ∉ after.reverse := by rwa [List.mem_reverse]
    refine ⟨segments front.reverse, after.reverse, ?_, single, .inr ⟨_, parted⟩⟩
    rw [parted, segments_append, segments_eq_singleton single]
  · exact ⟨[], characters, segments_eq_singleton slash, slash, .inl rfl⟩

theorem getLast?_segments_eq_nil_iff :
    (segments characters).getLast? = some [] ↔
      characters = [] ∨ characters.getLast? = some '/' := by
  obtain ⟨before, last, parts, whole, same⟩ := exists_last_segment characters
  have inside : last.getLast? ≠ some '/' := fun slash => whole (List.mem_of_getLast? slash)
  rw [parts, List.getLast?_concat, Option.some.injEq]
  rcases same with rfl | ⟨front, rfl⟩
  · simp [inside]
  · cases last with
    | nil => simp
    | cons character rest => simpa using inside

/-- A segment has no slash, and no character that the text does not have. -/
theorem mem_of_mem_segments
    (part : segment ∈ segments characters)
    (member : character ∈ segment) :
    character ∈ characters ∧ character ≠ '/' := by
  induction characters generalizing segment with
  | nil =>
      obtain rfl := List.mem_singleton.mp part
      cases member
  | cons head rest among =>
      unfold segments at part
      by_cases slash : head = '/'
      · rw [if_pos slash] at part
        rcases List.mem_cons.mp part with rfl | later
        · cases member
        · obtain ⟨inside, differs⟩ := among later member
          exact ⟨List.mem_cons_of_mem _ inside, differs⟩
      · rw [if_neg slash] at part
        cases parts : segments rest with
        | nil => exact absurd parts (segments_ne_nil rest)
        | cons opening others =>
            rw [parts] at part among
            rcases List.mem_cons.mp part with rfl | later
            · rcases List.mem_cons.mp member with rfl | inside
              · exact ⟨List.mem_cons_self, slash⟩
              · obtain ⟨inside, differs⟩ := among List.mem_cons_self inside
                exact ⟨List.mem_cons_of_mem _ inside, differs⟩
            · obtain ⟨inside, differs⟩ := among (List.mem_cons_of_mem _ later) member
              exact ⟨List.mem_cons_of_mem _ inside, differs⟩

/-! ## Slashes at the ends -/

theorem segments_replicate_append
    (count : Nat)
    (characters : List Char) :
    segments (List.replicate count '/' ++ characters) =
      List.replicate count [] ++ segments characters := by
  induction count with
  | zero => rfl
  | succ count fewer =>
      rw [List.replicate_succ, List.cons_append, segments, if_pos rfl, fewer, List.replicate_succ,
        List.cons_append]

theorem segments_append_replicate
    (characters : List Char)
    (count : Nat) :
    segments (characters ++ List.replicate count '/') =
      segments characters ++ List.replicate count [] := by
  cases count with
  | zero => rw [List.replicate_zero, List.replicate_zero, List.append_nil, List.append_nil]
  | succ count =>
      have slashes : segments (List.replicate count '/') = List.replicate (count + 1) [] := by
        have opening := segments_replicate_append count []
        rwa [List.append_nil, segments, ← List.replicate_succ'] at opening
      rw [List.replicate_succ, segments_append, slashes]

/-- A text is what is left of another one without the slashes at its ends. -/
structure Trimmed (characters core : List Char) : Prop where
  around :
    ∃ before after,
      characters = List.replicate before '/' ++ core ++ List.replicate after '/'
  opens : core.head? ≠ some '/'
  closes : core.getLast? ≠ some '/'

variable {core : List Char}

theorem head?_dropSlashes (characters : List Char) :
    (characters.dropWhile (· == '/')).head? ≠ some '/' := by
  intro slash
  have kept := List.head?_dropWhile_not (· == '/') characters
  rw [slash] at kept
  cases kept

theorem trimmed_trimSlashes (characters : List Char) :
    Trimmed characters (trimSlashes characters) := by
  have slashes :
      ∀ {part : List Char}, (∀ character ∈ part, (character == '/') = true) →
        List.replicate part.length '/' = part := by
    intro part only
    exact (List.eq_replicate_of_mem fun character member => beq_iff_eq.mp (only character member)).symm
  have parted :
      trimSlashes characters ++ (characters.dropWhile (· == '/')).rtakeWhile (· == '/') =
        characters.dropWhile (· == '/') :=
    List.rdropWhile_append_rtakeWhile
  refine ⟨⟨(characters.takeWhile (· == '/')).length,
    ((characters.dropWhile (· == '/')).rtakeWhile (· == '/')).length, ?_⟩, ?_, ?_⟩
  · rw [slashes fun _ => List.mem_takeWhile_imp, slashes fun _ => List.mem_rtakeWhile_imp,
      List.append_assoc, parted, List.takeWhile_append_dropWhile]
  · intro slash
    refine head?_dropSlashes characters ?_
    rw [← parted, List.head?_append, slash, Option.some_or]
  · rw [trimSlashes, trimSlashesRight, List.getLast?_reverse]
    exact head?_dropSlashes _

theorem Trimmed.mem_iff
    (trimmed : Trimmed characters core)
    (differs : character ≠ '/') :
    character ∈ core ↔ character ∈ characters := by
  obtain ⟨before, after, rfl⟩ := trimmed.around
  simp only [List.mem_append, List.mem_replicate, differs, and_false, false_or, or_false]

theorem Trimmed.mem_segments_iff
    (trimmed : Trimmed characters core)
    (nonempty : segment ≠ []) :
    segment ∈ segments core ↔ segment ∈ segments characters := by
  obtain ⟨before, after, rfl⟩ := trimmed.around
  rw [segments_append_replicate, segments_replicate_append]
  simp only [List.mem_append, List.mem_replicate, nonempty, and_false, false_or, or_false]

theorem Trimmed.eq_nil_iff (trimmed : Trimmed characters core) :
    core = [] ↔ ∀ character ∈ characters, character = '/' := by
  constructor
  · rintro rfl character member
    by_contra differs
    exact List.not_mem_nil ((trimmed.mem_iff differs).mpr member)
  · intro only
    obtain ⟨before, after, rfl⟩ := trimmed.around
    cases core with
    | nil => rfl
    | cons character rest =>
        have slash : character = '/' :=
          only character (List.mem_append_left _ (List.mem_append_right _ List.mem_cons_self))
        exact absurd (congrArg some slash) trimmed.opens

end ResumableUpload.Text
