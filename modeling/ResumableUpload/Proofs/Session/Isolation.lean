import ResumableUpload.Proofs.Queue.Calls
import ResumableUpload.Session

/-!
# Each operation keeps to its path

What comes first in the queue is uploaded first, so an operation on one path must not move, change or
lose the entry of another.  Adding, pausing and discarding a path and a report for it all leave the
entries of other paths alone, and an operation that is refused leaves the session as it was
(`Session.KeepsTo`).
-/

namespace ResumableUpload

namespace Session

variable {path : String}

/--
An operation on a path has left the entries of all other paths as they were, in their order, and
nothing has changed if it was refused.
-/
structure KeepsTo (path : String) (session : Session)
    (outcome : Session × Except UploadError Unit) : Prop where
  others : outcome.1.queue.others path = session.queue.others path
  refused : ∀ error, outcome.2 = .error error → outcome.1 = session

namespace KeepsTo

theorem ofQueue
    {session : Session}
    {queue : Queue}
    (same : queue.others path = session.queue.others path) :
    KeepsTo path session ({ session with queue := queue }, .ok ()) :=
  ⟨same, nofun⟩

theorem ofRefusal
    (session : Session)
    (error : UploadError) :
    KeepsTo path session (session, .error error) :=
  ⟨rfl, fun _ _ => rfl⟩

theorem add
    (session : Session)
    (file : FileHandle)
    (path : String) :
    KeepsTo path session (session.add file path) := by
  unfold Session.add
  split
  case h_1 queue added => exact ofQueue (Queue.others_add added)
  case h_2 refusal _ => exact ofRefusal session (.invalid refusal.message)

theorem stop
    (session : Session)
    (path : String) :
    KeepsTo path session (session.stop path) := by
  unfold Session.stop
  split
  case h_1 queue stopped => exact ofQueue (Queue.others_stop stopped)
  case h_2 => exact ofRefusal session (.notFound path)

theorem discard
    (session : Session)
    (path : String) :
    KeepsTo path session (session.discard path) := by
  unfold Session.discard
  split
  case h_1 queue deleted => exact ofQueue (Queue.others_delete deleted)
  case h_2 => exact ofRefusal session (.notFound path)

end KeepsTo

/-! ## Which operations are refused -/

theorem add_eq_ok_iff
    (session : Session)
    (file : FileHandle)
    (path : String) :
    (session.add file path).2 = .ok () ↔
      Queue.Accepts session.config.maxQueued session.queue file path := by
  rw [← Queue.exists_add_iff]
  unfold add
  split
  case h_1 queue added => exact iff_of_true rfl ⟨queue, added⟩
  case h_2 refusal refused =>
      refine iff_of_false nofun ?_
      rintro ⟨queue, added⟩
      cases refused.symm.trans added

theorem stop_eq_ok_iff
    (session : Session)
    (path : String) :
    (session.stop path).2 = .ok () ↔ path ∈ session.queue.entries.map (·.path) := by
  rw [← not_iff_not, ← Queue.find?_eq_none_iff, ← Queue.stop?_eq_none_iff]
  unfold stop
  cases session.queue.stop? path <;> simp

theorem discard_eq_ok_iff
    (session : Session)
    (path : String) :
    (session.discard path).2 = .ok () ↔ path ∈ session.queue.entries.map (·.path) := by
  rw [← not_iff_not, ← Queue.find?_eq_none_iff, ← Queue.delete?_eq_none_iff]
  unfold discard
  cases session.queue.delete? path <;> simp

/-! ## Where an added file is queued -/

/-- A file that is added takes over the entry of its path in its place, or is queued last. -/
theorem entries_add
    {session : Session}
    {file : FileHandle}
    (added : (session.add file path).2 = .ok ()) :
    (∃ front entry back,
      session.queue.entries = front ++ entry :: back ∧ entry.path = path ∧
        (∀ other ∈ front, other.path ≠ path) ∧
        (session.add file path).1.queue.entries = front ++ entry.resume file :: back) ∨
      path ∉ session.queue.entries.map (·.path) ∧
        (session.add file path).1.queue.entries =
          session.queue.entries ++ [Entry.ofFile file path] := by
  unfold add at added ⊢
  split at added
  case h_2 => cases added
  case h_1 queue accepted =>
      dsimp only
      obtain ⟨_, ⟨entry, found, _, rfl⟩ | ⟨missing, rfl⟩⟩ := Queue.add_cases accepted
      · obtain ⟨front, back, entries, differs, changed⟩ :=
          Queue.exists_modify (·.resume file) found
        exact .inl ⟨front, entry, back, entries, Queue.path_of_find? found, differs, changed⟩
      · exact .inr ⟨Queue.find?_eq_none_iff.mp missing, rfl⟩

/-! ## All of it -/

/--
Whatever is queued, adding, pausing or discarding a path and a report for it leave the entries of all
other paths as they were and in their order, and an operation that is refused changes nothing.  A path
that is not queued is neither paused nor discarded, and a file is added if its path is accepted, it is
not empty, and it has the size of the entry of the path or there is room for a new one.  A new entry is
queued last; one that is resumed keeps its place, its size and its offset.
-/
theorem operations_keep_to_path
    (session : Session)
    (path : String) :
    (∀ file,
      KeepsTo path session (session.add file path) ∧
        ((session.add file path).2 = .ok () ↔
          Queue.Accepts session.config.maxQueued session.queue file path) ∧
        ((session.add file path).2 = .ok () →
          (∃ front entry back,
            session.queue.entries = front ++ entry :: back ∧ entry.path = path ∧
              (∀ other ∈ front, other.path ≠ path) ∧
              (session.add file path).1.queue.entries =
                front ++ ⟨some file, path, entry.size, entry.uploaded, true, ""⟩ :: back) ∨
          path ∉ session.queue.entries.map (·.path) ∧
            (session.add file path).1.queue.entries =
              session.queue.entries ++ [⟨some file, path, file.size, 0, true, ""⟩])) ∧
      KeepsTo path session (session.stop path) ∧
      ((session.stop path).2 = .ok () ↔ path ∈ session.queue.entries.map (·.path)) ∧
      KeepsTo path session (session.discard path) ∧
      ((session.discard path).2 = .ok () ↔ path ∈ session.queue.entries.map (·.path)) ∧
      ∀ uploaded runnable message,
        (session.reconcile ⟨path, uploaded, runnable, message⟩).1.queue.others path =
          session.queue.others path := by
  refine ⟨?_, .stop session path, stop_eq_ok_iff session path, .discard session path,
    discard_eq_ok_iff session path, ?_⟩
  · intro file
    refine ⟨.add session file path, add_eq_ok_iff session file path, ?_⟩
    intro added
    rcases entries_add added with ⟨front, entry, back, entries, rfl, differs, resumed⟩ | appended
    · exact .inl ⟨front, entry, back, entries, rfl, differs, resumed⟩
    · exact .inr appended
  · intro uploaded runnable message
    exact Queue.others_reconcile session.queue ⟨path, uploaded, runnable, message⟩

end Session

end ResumableUpload
