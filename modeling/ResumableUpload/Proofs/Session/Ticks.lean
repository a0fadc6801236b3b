import ResumableUpload.Proofs.Session.Primed
import Mathlib.Logic.Function.Iterate

/-!
# Ticks of an inline executor

A tick gives the slot to the first upload that may run, and runs it to its end.  If every entry may
run and begins where the endpoint's bytes of it end (`Lined`), each tick takes the first entry from the
queue.  The chunks of one upload after another are then sent, in the order of the queue, and those of
each tile what was lacking of it (`Lined.sentInTicks`).
-/

namespace ResumableUpload.Session

/-- One tick of an inline executor: the first upload that may run is run to its end. -/
def tick (session : Session) : Session :=
  session.drainFor 1

/-- The chunks that are sent in a tick. -/
def sentInTick (session : Session) : List SentChunk :=
  match session.claimSlot with
  | (_, none) => []
  | (session, some run) =>
    match session.executor.engine? run with
    | none => []
    | some engine => session.sentBy engine (session.patience engine)

/-- The chunks that are sent in so many ticks. -/
def sentInTicks (session : Session) : (ticks : Nat) → List SentChunk
  | 0 => []
  | ticks + 1 => session.sentInTick ++ session.tick.sentInTicks ticks

variable {session : Session} {target : String → Option Bytes}

/-- In a tick the engine that is given the slot is run to its end. -/
theorem tick_eq
    {claimed : Session}
    {run : Nat}
    {engine : Engine}
    (taken : session.claimSlot = (claimed, some run))
    (begins : claimed.executor.engine? run = some engine) :
    let rested := claimed.runEngine engine (claimed.patience engine)
    session.tick = rested.1.freeSlot run rested.2 ∧
      session.sentInTick = claimed.sentBy engine (claimed.patience engine) := by
  simp only [tick, drainFor, sentInTick, taken, begins, and_self]

/-! ## A queue of which every entry may run -/

/-- Every entry may run, from where the endpoint's bytes of it end. -/
structure Lined (target : String → Option Bytes) (session : Session) : Prop where
  loaded : Loaded target session
  unscripted : session.endpoint.Unscripted
  runnable : ∀ entry ∈ session.queue.entries, entry.runnable = true
  level :
    ∀ entry ∈ session.queue.entries, entry.uploaded = session.endpoint.stored entry.path

namespace Lined

variable {entry : Entry} {rest : List Entry}

/-- The slot goes to the first entry. -/
theorem claimSlot_eq
    (lined : Lined target session)
    (entries : session.queue.entries = entry :: rest) :
    ∃ file bytes,
      entry.file = some file ∧ target entry.path = some bytes ∧ file.Holds bytes ∧
        session.endpoint.Partway entry.path bytes ∧
        session.queue.find? entry.path = some entry ∧
        session.claimSlot =
          ({ session with executor := session.executor.launch entry file },
            some session.executor.runs.length) := by
  have loaded := lined.loaded
  have member : entry ∈ session.queue.entries := entries ▸ List.mem_cons_self
  have runnable := lined.runnable entry member
  rcases loaded.claimSlot_cases with
    ⟨_, none_⟩ | ⟨chosen, file, next, found, _, held, claimed⟩
  · exact absurd runnable (List.countP_eq_zero.mp none_ entry member)
  · have eligible : session.queue.snapshot.next?.map (·.1) = session.queue.snapshot.first? :=
      Snapshot.next?_eq_first? loaded.ready
    have first : session.queue.snapshot.first? = some entry := by
      simp only [Snapshot.first?, Queue.snapshot, entries, List.find?_cons, runnable]
    rw [next, first] at eligible
    obtain rfl := Option.some.inj eligible
    obtain ⟨_, bytes, same, wanted, holds, partway⟩ := loaded.waiting found runnable
    cases held.symm.trans same
    exact ⟨file, bytes, held, wanted, holds, partway, found, claimed⟩

/-- The engine of the first entry begins level with the endpoint. -/
theorem resumes
    {file : FileHandle}
    {bytes : Bytes}
    (lined : Lined target session)
    (entries : session.queue.entries = entry :: rest)
    (held : entry.file = some file)
    (holds : file.Holds bytes)
    (partway : session.endpoint.Partway entry.path bytes)
    (found : session.queue.find? entry.path = some entry) :
    let claimed := { session with executor := session.executor.launch entry file }
    Resumes claimed entry.path bytes claimed
      (Engine.new session.executor.tuning entry.path file entry.uploaded).start := by
  have member : entry ∈ session.queue.entries := entries ▸ List.mem_cons_self
  exact lined.loaded.resumes lined.unscripted found (lined.runnable entry member) held holds partway
    (lined.level entry member)

/-- A tick sends what was lacking of the first upload, and leaves the others alone. -/
theorem tick
    (lined : Lined target session)
    (entries : session.queue.entries = entry :: rest) :
    Lined target session.tick ∧ session.tick.queue.entries = rest ∧
      (∀ other ∈ rest,
        session.tick.endpoint.stored other.path = session.endpoint.stored other.path) ∧
      session.tick.endpoint.chunkOffsets =
        session.endpoint.chunkOffsets ++ session.sentInTick.map SentChunk.place ∧
      ∃ bytes, target entry.path = some bytes ∧
        Tiles entry.path bytes (session.endpoint.stored entry.path) session.sentInTick := by
  obtain ⟨file, bytes, held, wanted, holds, partway, found, claimed⟩ := lined.claimSlot_eq entries
  have loaded := lined.loaded
  have begins := lined.resumes entries held holds partway found
  obtain ⟨final, rested, ran, ends, ended, seen, tiles⟩ :=
    begins.completes loaded.inline (remaining_le_patience _ _ _ _ _)
  obtain ⟨ticked, sent⟩ := tick_eq claimed (engine?_launch _ _ _)
  obtain ⟨kept, _⟩ := ends.turn.loaded ended loaded wanted
  obtain ⟨runs, freed⟩ := freeSlot_eq ends.turn.executor rested
  obtain ⟨behind, differs⟩ := loaded.tidy.others_head entries
  rw [ran] at ticked
  rw [← sent] at seen tiles
  -- What is left in the queue is of other paths, and the turn has not touched these.
  have left : session.tick.queue.entries = rest := by
    rw [ticked, freed, ← behind, ← Queue.others_of_missing (ends.gone ended)]
    exact ends.turn.others
  have stored :
      ∀ other ∈ rest,
        session.tick.endpoint.stored other.path = session.endpoint.stored other.path := by
    intro other member
    rw [ticked, freed]
    exact (ends.turn.stored (differs other member)).stored_eq
  have among : ∀ other ∈ session.tick.queue.entries, other ∈ session.queue.entries := by
    rw [left, entries]
    exact fun other => List.mem_cons_of_mem entry
  refine ⟨⟨ticked ▸ kept, ?_, ?_, ?_⟩, left, stored, ?_, bytes, wanted, ?_⟩
  · rw [ticked, freed]
    exact ends.unscripted
  · exact fun other member => lined.runnable other (among other member)
  · intro other member
    rw [stored other (left ▸ member)]
    exact lined.level other (among other member)
  · rw [ticked, freed]
    exact seen
  · have level :
        session.endpoint.stored entry.path =
          (Engine.new session.executor.tuning entry.path file entry.uploaded).start.offset :=
      begins.level
    rw [level]
    exact tiles

/-- Once no entry is left, everything has arrived. -/
theorem completed
    {path : String}
    {bytes : Bytes}
    (lined : Lined target session)
    (empty : session.queue.entries = [])
    (wanted : target path = some bytes) :
    session.endpoint.completed? path = some bytes := by
  have missing : session.queue.find? path = none := by
    rw [Queue.find?, empty, List.find?_nil]
  rcases lined.loaded.settled wanted with ⟨entry, found, _⟩ | concluded
  · exact absurd (missing.symm.trans found) (Option.some_ne_none entry).symm
  · cases concluded with
    | arrived _ completed => exact completed
    | failed found => exact absurd (missing.symm.trans found) (Option.some_ne_none _).symm

/-- Each tick takes the first entry from the queue. -/
theorem iterate
    {ticks : Nat}
    (lined : Lined target session)
    (enough : ticks ≤ session.queue.entries.length) :
    Lined target (Session.tick^[ticks] session) ∧
      (Session.tick^[ticks] session).queue.entries = session.queue.entries.drop ticks := by
  induction ticks generalizing session with
  | zero => exact ⟨lined, rfl⟩
  | succ ticks later =>
      cases entries : session.queue.entries with
      | nil =>
          rw [entries] at enough
          exact absurd enough (Nat.not_succ_le_zero ticks)
      | cons entry rest =>
          obtain ⟨kept, left, _⟩ := lined.tick entries
          rw [entries, List.length_cons, ← left] at enough
          rw [Function.iterate_succ_apply, List.drop_succ_cons, ← left]
          exact later kept (Nat.le_of_succ_le_succ enough)

/-- In as many ticks as there are entries, the chunks of one upload after another are sent. -/
theorem sentInTicks
    {entries : List Entry}
    (lined : Lined target session)
    (queued : session.queue.entries = entries) :
    let sent := session.sentInTicks entries.length
    (Session.tick^[entries.length] session).endpoint.chunkOffsets =
        session.endpoint.chunkOffsets ++ sent.map SentChunk.place ∧
      sent = entries.flatMap (fun entry => sent.filter (·.path == entry.path)) ∧
      ∀ entry ∈ entries, ∃ bytes, target entry.path = some bytes ∧
        Tiles entry.path bytes (session.endpoint.stored entry.path)
          (sent.filter (·.path == entry.path)) := by
  -- The chunks of the first tick are those of the first entry, and the others are of other paths.
  induction entries generalizing session with
  | nil => exact ⟨(List.append_nil _).symm, rfl, nofun⟩
  | cons entry rest later =>
      obtain ⟨kept, left, stored, seen, bytes, wanted, tiles⟩ := lined.tick queued
      obtain ⟨after, sorted, pieces⟩ := later kept left
      obtain ⟨_, differs⟩ := lined.loaded.tidy.others_head queued
      have others :
          ∀ chunk ∈ session.tick.sentInTicks rest.length, chunk.path ≠ entry.path := by
        intro chunk member
        rw [sorted] at member
        obtain ⟨other, queued, chosen⟩ := List.mem_flatMap.mp member
        rw [beq_iff_eq.mp (List.mem_filter.mp chosen).2]
        exact differs other queued
      have here := SentChunk.filter_append_self tiles.path_eq others
      have there (other) (member : other ∈ rest) :=
        SentChunk.filter_append_of_ne tiles.path_eq (differs other member)
          (session.tick.sentInTicks rest.length)
      rw [List.length_cons]
      refine ⟨?_, ?_, ?_⟩
      · rw [Function.iterate_succ_apply, after, seen, Session.sentInTicks, List.map_append,
          List.append_assoc]
      · rw [Session.sentInTicks, List.flatMap_cons, here, List.flatMap_congr there, ← sorted]
      · intro other member
        rw [Session.sentInTicks]
        rcases List.mem_cons.mp member with rfl | member
        · rw [here]
          exact ⟨bytes, wanted, tiles⟩
        · rw [there other member, ← stored other member]
          exact pieces other member

end Lined

end ResumableUpload.Session
