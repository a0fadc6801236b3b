import ResumableUpload.Proofs.Session.Chunks
import ResumableUpload.Proofs.Session.Drain

/-!
# Draining without a failure

If an entry tells what the endpoint has stored of its path, and every call is answered, its engine
sends what is missing and the entry leaves the queue.  A `Primed` session has no other entries that may
run, and none with a message; it stays so until all of them are gone, so in the end everything that was
wanted has arrived.
-/

namespace ResumableUpload.Session

variable {session final : Session} {target : String → Option Bytes} {path : String} {bytes : Bytes}
variable {entry : Entry} {file : FileHandle} {rested : Engine}

/-- The engine of an entry that tells what is stored of its path begins level with the endpoint. -/
theorem Loaded.resumes
    (loaded : Loaded target session)
    (unscripted : session.endpoint.Unscripted)
    (found : session.queue.find? entry.path = some entry)
    (runnable : entry.runnable = true)
    (held : entry.file = some file)
    (holds : file.Holds bytes)
    (partway : session.endpoint.Partway entry.path bytes)
    (level : entry.uploaded = session.endpoint.stored entry.path) :
    let claimed := { session with executor := session.executor.launch entry file }
    Resumes claimed entry.path bytes claimed
      (Engine.new session.executor.tuning entry.path file entry.uploaded).start := by
  intro claimed
  have member := Queue.mem_of_find? found
  have turn := loaded.turn found runnable held holds partway
  have below : entry.uploaded < file.size := by
    rw [loaded.tidy.fits member held]
    exact (loaded.ready entry member).below
  rw [level] at below turn ⊢
  exact ⟨turn, unscripted, rfl, .start _ below, nofun⟩

/-- Every entry that may run tells what is stored of its path, and no entry has a message. -/
structure Primed (target : String → Option Bytes) (session : Session) : Prop where
  loaded : Loaded target session
  unscripted : session.endpoint.Unscripted
  level :
    ∀ entry ∈ session.queue.entries, entry.runnable = true →
      entry.uploaded = session.endpoint.stored entry.path
  quiet : ∀ entry ∈ session.queue.entries, entry.message = ""

namespace Primed

/-- The entry whose turn it is leaves the queue, and the others stay as they are. -/
theorem turn
    (primed : Primed target session)
    (taken : TurnTaken target session entry file bytes final rested) :
    Primed target (final.freeSlot session.executor.runs.length rested) := by
  have loaded := primed.loaded
  have level := primed.level entry (Queue.mem_of_find? taken.found) taken.runnable
  have begins :=
    loaded.resumes primed.unscripted taken.found taken.runnable taken.held taken.holds taken.partway
      level
  obtain ⟨_, _, ran, ends, ended, _⟩ :=
    begins.completes loaded.inline (remaining_le_patience _ _ _ _ _)
  cases taken.ran.symm.trans ran
  obtain ⟨kept, _⟩ := taken.turn.loaded ended loaded taken.wanted
  obtain ⟨runs, freed⟩ := freeSlot_eq taken.turn.executor rested
  rw [freed] at kept ⊢
  have left :
      ∀ other ∈ final.queue.entries,
        other ∈ session.queue.entries ∧ other.path ≠ entry.path := by
    intro other member
    rw [← Queue.others_of_missing (ends.gone ended), ends.turn.others] at member
    obtain ⟨queued, differs⟩ := List.mem_filter.mp member
    exact ⟨queued, bne_iff_ne.mp differs⟩
  refine ⟨kept, ends.unscripted, ?_, ?_⟩
  · intro other member runnable
    obtain ⟨queued, differs⟩ := left other member
    rw [(ends.turn.stored differs).stored_eq]
    exact primed.level other queued runnable
  · exact fun other member => primed.quiet other (left other member).1

theorem drainFor
    (primed : Primed target session)
    (turns : Nat) :
    Primed target (session.drainFor turns) := by
  induction turns generalizing session with
  | zero => exact primed
  | succ turns later =>
      rcases primed.loaded.drainFor_succ turns with ⟨same, _⟩ | ⟨_, _, _, _, _, taken, goes⟩
      · rw [same]
        exact primed
      · rw [goes]
        exact later (primed.turn taken)

/-- Once the queue is drained no entry has a message, and everything that was wanted has arrived. -/
theorem drain (primed : Primed target session) :
    (∀ entry ∈ session.drain.queue.entries, entry.message = "") ∧
      ∀ {path : String} {bytes : Bytes},
        target path = some bytes → session.drain.endpoint.completed? path = some bytes := by
  have drained := primed.drainFor session.queue.entries.length
  refine ⟨drained.quiet, ?_⟩
  intro path bytes wanted
  cases primed.loaded.drain wanted with
  | arrived _ completed => exact completed
  | failed found _ told => exact absurd (drained.quiet _ (Queue.mem_of_find? found)) told

end Primed

end ResumableUpload.Session
