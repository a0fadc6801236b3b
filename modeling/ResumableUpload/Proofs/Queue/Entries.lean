import ResumableUpload.Queue
import Mathlib.Data.List.Nodup

/-!
# The entry of a path

Every operation of the queue changes the entry of one path, and leaves that of every other path as
it was.  `Queue.Tidy` is what all of them keep: a path is queued once, and the file of an entry has
the size of the entry.
-/

namespace ResumableUpload

namespace Queue

variable {queue next : Queue} {path other : String} {entry : Entry} {file : FileHandle}
variable {report : Report} {limit : Nat}

/-- A path is queued once, and the file of an entry has the size of the entry. -/
structure Tidy (queue : Queue) : Prop where
  distinct : (queue.entries.map (·.path)).Nodup
  fits :
    ∀ {entry : Entry} {file : FileHandle},
      entry ∈ queue.entries → entry.file = some file → file.size = entry.size

theorem path_of_find? (found : queue.find? path = some entry) : entry.path = path := by
  have passed := List.find?_some found
  exact beq_iff_eq.mp passed

theorem mem_of_find? (found : queue.find? path = some entry) : entry ∈ queue.entries :=
  List.mem_of_find?_eq_some found

theorem find?_eq_none_iff : queue.find? path = none ↔ path ∉ queue.entries.map (·.path) := by
  simp [find?]

theorem Tidy.find?_of_mem
    (tidy : queue.Tidy)
    (member : entry ∈ queue.entries) :
    queue.find? entry.path = some entry := by
  have distinct := tidy.distinct
  unfold find?
  generalize queue.entries = entries at distinct member
  induction entries with
  | nil => cases member
  | cons head rest found =>
      rw [List.map_cons, List.nodup_cons] at distinct
      rcases List.mem_cons.mp member with same | later
      · subst same
        exact List.find?_cons_of_pos (beq_self_eq_true _)
      · have differs : head.path ≠ entry.path := by
          intro same
          apply distinct.1
          rw [same]
          exact List.mem_map_of_mem later
        have skipped : (head.path == entry.path) = false := by simpa using differs
        simp only [List.find?_cons, skipped]
        exact found distinct.2 later

/-! ## Changing an entry in place -/

/-- A change in place that keeps paths is seen under its own path only. -/
theorem find?_modify
    (change : Entry → Entry)
    (kept : ∀ entry : Entry, (change entry).path = entry.path)
    (entries : List Entry)
    (path other : String) :
    (modify path change entries).find? (·.path == other) =
      if other = path then (entries.find? (·.path == other)).map change
      else entries.find? (·.path == other) := by
  induction entries with
  | nil => simp [modify]
  | cons head rest changed =>
      unfold modify
      split
      case isTrue here =>
          have same : head.path = path := beq_iff_eq.mp here
          by_cases asked : other = path
          · subst asked
            simp [kept, same]
          · have differs : path ≠ other := fun equal => asked equal.symm
            simp [kept, same, asked, differs]
      case isFalse elsewhere =>
          rw [List.find?_cons, List.find?_cons, changed]
          by_cases found : head.path = other
          · have differs : other ≠ path := by
              rintro rfl
              exact elsewhere (beq_iff_eq.mpr found)
            simp [found, differs]
          · simp only [beq_eq_false_iff_ne.mpr found]

theorem map_path_modify
    {change : Entry → Entry}
    (kept : ∀ entry : Entry, (change entry).path = entry.path)
    (entries : List Entry) :
    (modify path change entries).map (·.path) = entries.map (·.path) := by
  induction entries with
  | nil => rfl
  | cons head rest same =>
      unfold modify
      split
      · rw [List.map_cons, List.map_cons, kept]
      · rw [List.map_cons, List.map_cons, same]

/-- What is changed is the first entry of the path, and it keeps its place. -/
theorem exists_modify
    {entries : List Entry}
    (change : Entry → Entry)
    (found : entries.find? (·.path == path) = some entry) :
    ∃ front back,
      entries = front ++ entry :: back ∧ (∀ other ∈ front, other.path ≠ path) ∧
        modify path change entries = front ++ change entry :: back := by
  induction entries with
  | nil => cases found
  | cons head rest later =>
      unfold modify
      rw [List.find?_cons] at found
      split at found
      case h_1 here =>
          cases found
          exact ⟨[], rest, rfl, nofun, if_pos here⟩
      case h_2 elsewhere =>
          obtain ⟨front, back, rfl, differs, changed⟩ := later found
          refine ⟨head :: front, back, rfl, ?_, ?_⟩
          · exact List.forall_mem_cons.mpr ⟨beq_eq_false_iff_ne.mp elsewhere, differs⟩
          · rw [if_neg (Bool.eq_false_iff.mp elsewhere), changed]
            rfl

theorem mem_modify
    {change : Entry → Entry}
    {entries : List Entry}
    (member : entry ∈ modify path change entries) :
    entry ∈ entries ∨
      ∃ before ∈ entries, before.path = path ∧ entry = change before := by
  induction entries with
  | nil => cases member
  | cons head rest earlier =>
      unfold modify at member
      split at member
      case isTrue here =>
          rcases List.mem_cons.mp member with same | later
          · exact .inr ⟨head, List.mem_cons_self, beq_iff_eq.mp here, same⟩
          · exact .inl (List.mem_cons_of_mem _ later)
      case isFalse =>
          rcases List.mem_cons.mp member with same | later
          · exact .inl (same ▸ List.mem_cons_self)
          · rcases earlier later with found | ⟨before, found, changed⟩
            · exact .inl (List.mem_cons_of_mem _ found)
            · exact .inr ⟨before, List.mem_cons_of_mem _ found, changed⟩

/-- A change in place keeps the queue tidy if the changed entry still fits its file. -/
theorem Tidy.modify
    {seen : Nat}
    (tidy : queue.Tidy)
    (change : Entry → Entry)
    (kept : ∀ entry : Entry, (change entry).path = entry.path)
    (fits :
      ∀ {entry : Entry} {file : FileHandle},
        queue.find? path = some entry → (change entry).file = some file →
          file.size = (change entry).size) :
    Tidy ⟨Queue.modify path change queue.entries, seen⟩ where
  distinct := by
    rw [map_path_modify kept]
    exact tidy.distinct
  fits member holds := by
    rcases mem_modify member with before | ⟨before, found, here, rfl⟩
    · exact tidy.fits before holds
    · refine fits ?_ holds
      rw [← here]
      exact tidy.find?_of_mem found

/-! ## Removing an entry -/

theorem Tidy.find?_erase
    (tidy : queue.Tidy)
    (path other : String) :
    (queue.erase path).find? other = if other = path then none else queue.find? other := by
  have distinct := tidy.distinct
  unfold find? erase
  dsimp only
  generalize queue.entries = entries at distinct
  induction entries with
  | nil => simp
  | cons head rest removed =>
      rw [List.map_cons, List.nodup_cons] at distinct
      by_cases here : head.path = path
      · rw [List.eraseP_cons_of_pos (by simp [here])]
        by_cases asked : other = path
        · rw [if_pos asked, List.find?_eq_none]
          intro entry member found
          apply distinct.1
          rw [here, ← asked, ← beq_iff_eq.mp found]
          exact List.mem_map_of_mem member
        · have differs : (head.path == other) = false := by
            rw [here]
            exact beq_eq_false_iff_ne.mpr fun equal => asked equal.symm
          rw [if_neg asked, List.find?_cons, differs]
      · rw [List.eraseP_cons_of_neg (by simp [here]), List.find?_cons, List.find?_cons,
          removed distinct.2]
        by_cases found : head.path = other
        · have differs : other ≠ path := by
            rintro rfl
            exact here found
          simp [found, differs]
        · simp only [beq_eq_false_iff_ne.mpr found]

theorem Tidy.erase
    (tidy : queue.Tidy)
    (path : String) :
    (queue.erase path).Tidy where
  distinct := tidy.distinct.sublist (List.eraseP_sublist.map _)
  fits member := tidy.fits (List.mem_of_mem_eraseP member)

/-! ## Appending an entry -/

theorem find?_append
    (entries : List Entry)
    (added : Entry)
    (path : String) :
    (entries ++ [added]).find? (·.path == path) =
      (entries.find? (·.path == path)).or (if added.path = path then some added else none) := by
  rw [List.find?_append, List.find?_singleton]
  by_cases here : added.path = path <;> simp [here]

theorem Tidy.append
    {seen : Nat}
    {added : Entry}
    (tidy : queue.Tidy)
    (missing : queue.find? added.path = none)
    (fits :
      ∀ {file : FileHandle}, added.file = some file → file.size = added.size) :
    Tidy ⟨queue.entries ++ [added], seen⟩ where
  distinct := by
    rw [List.map_append, List.map_singleton, List.nodup_append]
    refine ⟨tidy.distinct, List.nodup_singleton _, ?_⟩
    intro first member second single same
    rw [List.mem_singleton] at single
    obtain ⟨entry, found, rfl⟩ := List.mem_map.mp member
    have absent := List.find?_eq_none.mp missing entry found
    apply absent
    exact beq_iff_eq.mpr (same.trans single)
  fits member holds := by
    rcases List.mem_append.mp member with earlier | last
    · exact tidy.fits earlier holds
    · rw [List.mem_singleton] at last
      subst last
      exact fits holds

/-! ## The entries of other paths -/

/-- The entries of all other paths, in their order. -/
def others (queue : Queue) (path : String) : List Entry :=
  queue.entries.filter (·.path != path)

theorem find?_of_others
    (same : next.others path = queue.others path)
    (differs : other ≠ path) :
    next.find? other = queue.find? other := by
  have kept (queue : Queue) : queue.find? other = (queue.others path).find? (·.path == other) := by
    unfold find? others
    rw [List.find?_filter]
    congr 1
    funext entry
    by_cases here : entry.path = other <;> simp [here, differs]
  rw [kept next, kept queue, same]

theorem others_of_missing (missing : queue.find? path = none) :
    queue.others path = queue.entries := by
  refine List.filter_eq_self.mpr fun entry member => bne_iff_ne.mpr ?_
  rintro rfl
  exact find?_eq_none_iff.mp missing (List.mem_map_of_mem member)

/-- The entries behind the first one are those of all other paths. -/
theorem Tidy.others_head
    {rest : List Entry}
    (tidy : queue.Tidy)
    (entries : queue.entries = entry :: rest) :
    queue.others entry.path = rest ∧ ∀ other ∈ rest, other.path ≠ entry.path := by
  have distinct := tidy.distinct
  rw [entries, List.map_cons, List.nodup_cons] at distinct
  have differs : ∀ other ∈ rest, other.path ≠ entry.path := by
    intro other member same
    exact distinct.1 (same ▸ List.mem_map_of_mem member)
  refine ⟨?_, differs⟩
  rw [others, entries, List.filter_cons_of_neg (by simp)]
  exact List.filter_eq_self.mpr fun other member => bne_iff_ne.mpr (differs other member)

theorem others_modify
    (change : Entry → Entry)
    (kept : ∀ entry : Entry, (change entry).path = entry.path)
    (entries : List Entry) :
    (modify path change entries).filter (·.path != path) =
      entries.filter (·.path != path) := by
  induction entries with
  | nil => rfl
  | cons head rest same =>
      unfold modify
      split
      case isTrue here =>
          rw [List.filter_cons_of_neg, List.filter_cons_of_neg] <;> simpa [kept] using here
      case isFalse => rw [List.filter_cons, List.filter_cons, same]

theorem others_erase
    (queue : Queue)
    (path : String) :
    (queue.erase path).others path = queue.others path := by
  unfold others erase
  dsimp only
  induction queue.entries with
  | nil => rfl
  | cons head rest same =>
      by_cases here : head.path = path
      · rw [List.eraseP_cons_of_pos (by simp [here]), List.filter_cons_of_neg (by simp [here])]
      · rw [List.eraseP_cons_of_neg (by simp [here]), List.filter_cons, List.filter_cons, same]

theorem others_append
    (queue : Queue)
    (added : Entry) :
    others { queue with entries := queue.entries ++ [added] } added.path =
      queue.others added.path := by
  unfold others
  rw [List.filter_append, List.filter_cons_of_neg (by simp), List.filter_nil, List.append_nil]

/-- A report leaves the entries of all other paths as they were, and in their order. -/
theorem others_reconcile
    (queue : Queue)
    (report : Report) :
    (queue.reconcile report).others report.path = queue.others report.path := by
  unfold reconcile
  split
  case h_1 => rfl
  case h_2 =>
      split
      case isTrue => exact others_erase _ report.path
      case isFalse => exact others_modify (·.apply report) (fun _ => rfl) queue.entries

/-! ## The operations of the queue -/

/-- A file that is added either resumes the entry of its path or is appended. -/
theorem add_cases (added : queue.add limit file path = .ok next) :
    0 < file.size ∧
      ((∃ entry,
          queue.find? path = some entry ∧ entry.size = file.size ∧
            next = { queue with entries := modify path (·.resume file) queue.entries }) ∨
        queue.find? path = none ∧
          next = { queue with entries := queue.entries ++ [Entry.ofFile file path] }) := by
  unfold add at added
  split at added
  case h_1 => cases added
  case h_2 =>
      split at added
      case isTrue => cases added
      case isFalse nonempty =>
          refine ⟨Nat.pos_of_ne_zero nonempty, ?_⟩
          split at added
          case h_1 entry found =>
              split at added
              case isTrue size =>
                  cases added
                  exact .inl ⟨entry, found, size, rfl⟩
              case isFalse => cases added
          case h_2 missing =>
              split at added
              case isTrue => cases added
              case isFalse =>
                  cases added
                  exact .inr ⟨missing, rfl⟩

/-- An added file is queued, ready to run, under its path. -/
theorem find?_add
    (added : queue.add limit file path = .ok next) :
    ∃ entry,
      next.find? path = some entry ∧ entry.file = some file ∧ entry.size = file.size ∧
        entry.runnable = true := by
  obtain ⟨_, ⟨entry, found, size, rfl⟩ | ⟨missing, rfl⟩⟩ := add_cases added
  · refine ⟨entry.resume file, ?_, rfl, size, rfl⟩
    have changed := find?_modify (·.resume file) (fun _ => rfl) queue.entries path path
    exact (changed.trans (if_pos rfl)).trans (congrArg _ found)
  · refine ⟨Entry.ofFile file path, ?_, rfl, rfl, rfl⟩
    have appended := find?_append queue.entries (Entry.ofFile file path) path
    have absent : queue.entries.find? (·.path == path) = none := missing
    rw [absent, Option.none_or] at appended
    exact appended.trans (if_pos rfl)

theorem find?_add_of_ne
    (added : queue.add limit file path = .ok next)
    (differs : other ≠ path) :
    next.find? other = queue.find? other := by
  obtain ⟨_, ⟨entry, found, size, rfl⟩ | ⟨missing, rfl⟩⟩ := add_cases added
  · have changed := find?_modify (·.resume file) (fun _ => rfl) queue.entries path other
    exact changed.trans (if_neg differs)
  · have appended := find?_append queue.entries (Entry.ofFile file path) other
    have elsewhere : ¬ (Entry.ofFile file path).path = other := fun same => differs same.symm
    rw [if_neg elsewhere, Option.or_none] at appended
    exact appended

/-- Adding a file leaves the offset of an entry as it was, and a new entry starts from byte zero. -/
theorem uploaded_add
    (added : queue.add limit file path = .ok next)
    (found : next.find? path = some entry) :
    (∃ before, queue.find? path = some before ∧ entry.uploaded = before.uploaded) ∨
      queue.find? path = none ∧ entry.uploaded = 0 := by
  obtain ⟨_, ⟨before, queued, _, rfl⟩ | ⟨missing, rfl⟩⟩ := add_cases added
  · have changed := find?_modify (·.resume file) (fun _ => rfl) queue.entries path path
    have resumed := (changed.trans (if_pos rfl)).trans (congrArg _ queued)
    cases resumed.symm.trans found
    exact .inl ⟨before, queued, rfl⟩
  · have appended := find?_append queue.entries (Entry.ofFile file path) path
    have absent : queue.entries.find? (·.path == path) = none := missing
    rw [absent, Option.none_or] at appended
    cases (appended.trans (if_pos rfl)).symm.trans found
    exact .inr ⟨missing, rfl⟩

/-- Adding a file leaves the entries of all other paths as they were, and in their order. -/
theorem others_add (added : queue.add limit file path = .ok next) :
    next.others path = queue.others path := by
  obtain ⟨_, ⟨_, _, _, rfl⟩ | ⟨_, rfl⟩⟩ := add_cases added
  · exact others_modify (·.resume file) (fun _ => rfl) queue.entries
  · exact others_append queue (Entry.ofFile file path)

/-- A file is added unless its entry has another size, or there is no room for a new entry. -/
theorem exists_add
    (valid : RemotePath.fault? path = none)
    (nonempty : 0 < file.size)
    (fits : ∀ {entry : Entry}, queue.find? path = some entry → entry.size = file.size)
    (room : queue.find? path = none → queue.entries.length < limit) :
    ∃ next, queue.add limit file path = .ok next := by
  unfold add
  simp only [valid, Nat.ne_of_gt nonempty, ↓reduceIte]
  cases found : queue.find? path with
  | some entry => exact ⟨_, if_pos (fits found)⟩
  | none => exact ⟨_, if_neg (Nat.not_le_of_lt (room found))⟩

/-- A path that is queued keeps its place, and another one is queued last. -/
theorem map_path_add (added : queue.add limit file path = .ok next) :
    next.entries.map (·.path) =
      queue.entries.map (·.path) ++ if (queue.find? path).isSome then [] else [path] := by
  obtain ⟨_, ⟨entry, found, _, rfl⟩ | ⟨missing, rfl⟩⟩ := add_cases added
  · have kept : ∀ entry : Entry, (entry.resume file).path = entry.path := fun _ => rfl
    rw [found, Option.isSome_some, if_pos rfl, List.append_nil]
    exact map_path_modify kept queue.entries
  · rw [missing, Option.isSome_none, if_neg Bool.false_ne_true, List.map_append]
    rfl

/-- How much of a path the queue takes for confirmed. -/
def confirmed (queue : Queue) (path : String) : Nat :=
  ((queue.find? path).map (·.uploaded)).getD 0

/-- A file that is added goes on where its path is confirmed, and no other path is touched. -/
theorem confirmed_add
    (added : queue.add limit file path = .ok next)
    (other : String) :
    next.confirmed other = queue.confirmed other := by
  unfold confirmed
  by_cases here : other = path
  · subst here
    obtain ⟨entry, found, _⟩ := find?_add added
    rw [found]
    rcases uploaded_add added found with ⟨before, queued, same⟩ | ⟨missing, none_⟩
    · rw [queued, Option.map_some, Option.map_some, same]
    · rw [missing, Option.map_some, none_, Option.getD_some, Option.map_none, Option.getD_none]
  · rw [find?_add_of_ne added here]

theorem Tidy.add
    (tidy : queue.Tidy)
    (added : queue.add limit file path = .ok next) :
    next.Tidy := by
  obtain ⟨_, ⟨entry, found, size, rfl⟩ | ⟨missing, rfl⟩⟩ := add_cases added
  · refine tidy.modify (·.resume file) (fun _ => rfl) ?_
    intro other held here holds
    rw [found] at here
    cases here
    cases holds
    exact size.symm
  · refine tidy.append missing ?_
    rintro _ ⟨⟩
    rfl

theorem stop?_eq_some (stopped : queue.stop? path = some next) :
    (∃ entry, queue.find? path = some entry) ∧
      next = { queue with entries := modify path Entry.pause queue.entries } := by
  unfold stop? at stopped
  split at stopped
  case h_1 entry found => exact ⟨⟨entry, found⟩, (Option.some.inj stopped).symm⟩
  case h_2 => cases stopped

theorem find?_stop
    (stopped : queue.stop? path = some next)
    (other : String) :
    next.find? other =
      if other = path then (queue.find? other).map Entry.pause else queue.find? other := by
  obtain ⟨_, rfl⟩ := stop?_eq_some stopped
  exact find?_modify Entry.pause (fun _ => rfl) queue.entries path other

theorem stop?_eq_none_iff : queue.stop? path = none ↔ queue.find? path = none := by
  unfold stop?
  cases queue.find? path <;> simp

theorem others_stop (stopped : queue.stop? path = some next) :
    next.others path = queue.others path := by
  obtain ⟨_, rfl⟩ := stop?_eq_some stopped
  exact others_modify Entry.pause (fun _ => rfl) queue.entries

theorem Tidy.stop
    (tidy : queue.Tidy)
    (stopped : queue.stop? path = some next) :
    next.Tidy := by
  obtain ⟨_, rfl⟩ := stop?_eq_some stopped
  refine tidy.modify Entry.pause (fun _ => rfl) ?_
  intro entry file found holds
  have fits : file.size = entry.size := tidy.fits (mem_of_find? found) holds
  exact fits

theorem delete?_eq_some (deleted : queue.delete? path = some next) :
    next = queue.erase path := by
  unfold delete? at deleted
  split at deleted
  case h_1 => exact (Option.some.inj deleted).symm
  case h_2 => cases deleted

theorem delete?_eq_none_iff : queue.delete? path = none ↔ queue.find? path = none := by
  unfold delete?
  cases queue.find? path <;> simp

theorem others_delete (deleted : queue.delete? path = some next) :
    next.others path = queue.others path := by
  rw [delete?_eq_some deleted]
  exact others_erase queue path

theorem Tidy.find?_delete
    (tidy : queue.Tidy)
    (deleted : queue.delete? path = some next)
    (other : String) :
    next.find? other = if other = path then none else queue.find? other := by
  rw [delete?_eq_some deleted]
  exact tidy.find?_erase path other

theorem Tidy.delete
    (tidy : queue.Tidy)
    (deleted : queue.delete? path = some next) :
    next.Tidy := by
  rw [delete?_eq_some deleted]
  exact tidy.erase path

/-- Whoever is queued stays as it is when listed uploads are taken up. -/
theorem find?_restore_of_some
    {infos : List PartialInfo}
    (found : queue.find? path = some entry) :
    (queue.restore limit infos).1.find? path = some entry := by
  induction infos generalizing queue with
  | nil => exact found
  | cons info rest kept =>
      unfold restore
      split
      case isTrue =>
          split
          case isTrue => exact found
          case isFalse =>
              apply kept
              have appended := find?_append queue.entries (Entry.ofInfo info) path
              have present : queue.entries.find? (·.path == path) = some entry := found
              rw [present, Option.some_or] at appended
              exact appended
      case isFalse => exact kept found

/-- An entry that is taken up is the one of a listed upload. -/
theorem restored
    {infos : List PartialInfo}
    (missing : queue.find? path = none)
    (found : (queue.restore limit infos).1.find? path = some entry) :
    ∃ info ∈ infos, info.path = path ∧ entry = .ofInfo info := by
  induction infos generalizing queue with
  | nil =>
      rw [restore, missing] at found
      cases found
  | cons info rest later =>
      have further :
          (∃ listed ∈ rest, listed.path = path ∧ entry = .ofInfo listed) →
            ∃ listed ∈ info :: rest, listed.path = path ∧ entry = .ofInfo listed := by
        rintro ⟨listed, member, same⟩
        exact ⟨listed, List.mem_cons_of_mem _ member, same⟩
      unfold restore at found
      split at found
      case isTrue =>
          split at found
          case isTrue =>
              rw [missing] at found
              cases found
          case isFalse =>
              dsimp only at found
              have appended := find?_append queue.entries (Entry.ofInfo info) path
              have absent : queue.entries.find? (·.path == path) = none := missing
              rw [absent, Option.none_or] at appended
              let extended : Queue := { queue with entries := queue.entries ++ [.ofInfo info] }
              by_cases here : (Entry.ofInfo info).path = path
              · rw [if_pos here] at appended
                have first : extended.find? path = some (Entry.ofInfo info) := appended
                have kept := (find?_restore_of_some first).symm.trans found
                cases kept
                exact ⟨info, List.mem_cons_self, here, rfl⟩
              · rw [if_neg here] at appended
                have still : extended.find? path = none := appended
                exact further (later still found)
      case isFalse => exact further (later missing found)

/-- What is taken up from a listing has no file and is paused. -/
theorem find?_restore_of_none
    {infos : List PartialInfo}
    (missing : queue.find? path = none)
    (found : (queue.restore limit infos).1.find? path = some entry) :
    entry.file = none ∧ entry.runnable = false := by
  obtain ⟨info, _, _, rfl⟩ := restored missing found
  exact ⟨rfl, rfl⟩

theorem Tidy.restore
    {infos : List PartialInfo}
    (tidy : queue.Tidy) :
    (queue.restore limit infos).1.Tidy := by
  induction infos generalizing queue with
  | nil => exact tidy
  | cons info rest kept =>
      unfold Queue.restore
      split
      case isTrue restorable =>
          split
          case isTrue => exact tidy
          case isFalse =>
              apply kept
              refine tidy.append ?_ ?_
              · simp only [isRestorable, Bool.and_eq_true, Option.isNone_iff_eq_none] at restorable
                exact restorable.1.1.1
              · rintro _ ⟨⟩
      case isFalse => exact kept tidy

/-! ## Reports -/

theorem reportsSeen_add (added : queue.add limit file path = .ok next) :
    next.reportsSeen = queue.reportsSeen := by
  obtain ⟨_, ⟨_, _, _, rfl⟩ | ⟨_, rfl⟩⟩ := add_cases added <;> rfl

theorem reportsSeen_stop (stopped : queue.stop? path = some next) :
    next.reportsSeen = queue.reportsSeen := by
  obtain ⟨_, rfl⟩ := stop?_eq_some stopped
  rfl

theorem reportsSeen_delete (deleted : queue.delete? path = some next) :
    next.reportsSeen = queue.reportsSeen := by
  rw [delete?_eq_some deleted]
  rfl

theorem reportsSeen_restore
    (queue : Queue)
    (limit : Nat)
    (infos : List PartialInfo) :
    (queue.restore limit infos).1.reportsSeen = queue.reportsSeen := by
  induction infos generalizing queue with
  | nil => rfl
  | cons info rest same =>
      unfold restore
      split
      · split
        · rfl
        · exact same { queue with entries := queue.entries ++ [.ofInfo info] }
      · exact same queue

theorem Tidy.find?_reconcile
    (tidy : queue.Tidy)
    (report : Report)
    (path : String) :
    (queue.reconcile report).find? path =
      if path = report.path then
        (queue.find? path).bind fun entry =>
          if entry.size ≤ report.uploaded then none else some (entry.apply report)
      else queue.find? path := by
  have counted : Tidy { queue with reportsSeen := queue.reportsSeen + 1 } :=
    ⟨tidy.distinct, tidy.fits⟩
  unfold reconcile
  split
  case h_1 missing =>
      by_cases here : path = report.path
      · subst here
        rw [if_pos rfl, missing]
        exact missing
      · rw [if_neg here]
        rfl
  case h_2 entry found =>
      split
      case isTrue whole =>
          rw [counted.find?_erase]
          by_cases here : path = report.path
          · subst here
            rw [if_pos rfl, if_pos rfl, found, Option.bind_some, if_pos whole]
          · rw [if_neg here, if_neg here]
            rfl
      case isFalse lacking =>
          have changed :=
            find?_modify (·.apply report) (fun _ => rfl) queue.entries report.path path
          refine changed.trans ?_
          by_cases here : path = report.path
          · subst here
            have present : queue.entries.find? (·.path == report.path) = some entry := found
            rw [if_pos rfl, if_pos rfl, found, present, Option.map_some, Option.bind_some,
              if_neg lacking]
          · rw [if_neg here, if_neg here]
            rfl

theorem Tidy.reconcile
    (tidy : queue.Tidy)
    (report : Report) :
    (queue.reconcile report).Tidy := by
  have counted : Tidy { queue with reportsSeen := queue.reportsSeen + 1 } :=
    ⟨tidy.distinct, tidy.fits⟩
  unfold Queue.reconcile
  split
  case h_1 => exact counted
  case h_2 =>
      split
      case isTrue => exact counted.erase report.path
      case isFalse =>
          refine counted.modify (·.apply report) (fun _ => rfl) ?_
          intro entry file found holds
          have fits : file.size = entry.size := counted.fits (mem_of_find? found) holds
          exact fits

@[simp]
theorem reportsSeen_reconcile
    (queue : Queue)
    (report : Report) :
    (queue.reconcile report).reportsSeen = queue.reportsSeen + 1 := by
  unfold reconcile
  split
  · rfl
  · split <;> rfl

end Queue

end ResumableUpload
