import ResumableUpload.Proofs.Executor.Panics
import ResumableUpload.Proofs.Session.Turns

/-!
# Draining the queue

`Loaded` is what holds between two turns of a session whose runnable entries are to bring given
contents to their paths: each path is still to be transferred, or has come to its end.  A turn takes
the first runnable entry to its end, so there is one runnable entry fewer after each turn, and none
once every entry could have had one.
-/

namespace ResumableUpload

namespace Session

variable {session : Session} {target : String → Option Bytes} {path : String} {bytes : Bytes}

/-- What holds between the turns, where `target` tells which contents the paths are to have. -/
structure Loaded (target : String → Option Bytes) (session : Session) : Prop where
  online : session.cutOff = none
  fails : session.endpoint.OnlyFails
  inline : session.executor.hosting = .inline
  free : session.executor.holder = none
  unmarked : session.executor.failed = none
  counted : session.executor.emitted = session.queue.reportsSeen
  pace : session.executor.tuning.pace.Keeps 1
  tidy : session.queue.Tidy
  ready : session.queue.Ready
  /-- A runnable entry has the right file, and the endpoint no more than a proper prefix of it. -/
  waiting : ∀ {path : String} {entry : Entry},
    session.queue.find? path = some entry → entry.runnable = true →
      ∃ file bytes, entry.file = some file ∧ target path = some bytes ∧ file.Holds bytes ∧
        session.endpoint.Partway path bytes
  settled : ∀ {path : String} {bytes : Bytes}, target path = some bytes →
    (∃ entry, session.queue.find? path = some entry ∧ entry.runnable = true) ∨
      session.Concluded path bytes

/-- Coming to an end depends only on the entry of the path and on what is stored of it. -/
theorem Concluded.congr
    {final : Session}
    (concluded : session.Concluded path bytes)
    (queued : final.queue.find? path = session.queue.find? path)
    (stored : Endpoint.AgreesOn path session.endpoint final.endpoint) :
    final.Concluded path bytes := by
  cases concluded with
  | arrived gone completed =>
      exact .arrived (queued.trans gone) (stored.completed.trans completed)
  | failed found paused told => exact .failed (queued.trans found) paused told

theorem Concluded.paused
    (concluded : session.Concluded path bytes) :
    session.queue.Paused path := by
  intro entry found
  cases concluded with
  | arrived gone =>
      rw [gone] at found
      cases found
  | failed known paused =>
      cases known.symm.trans found
      exact paused

/-! ## Claiming and freeing the slot -/

/-- A free slot goes to the first runnable entry, or there is none. -/
theorem Loaded.claimSlot_cases
    (loaded : Loaded target session) :
    (session.claimSlot = (session, none) ∧ session.queue.runnables = 0) ∨
      ∃ entry file,
        session.queue.snapshot.next? = some (entry, file) ∧
          session.queue.find? entry.path = some entry ∧ entry.runnable = true ∧
          entry.file = some file ∧
          session.claimSlot =
            ({ session with executor := session.executor.launch entry file },
              some session.executor.runs.length) := by
  have vacant : session.executor.holder? = none := Executor.holder?_eq_none loaded.free
  have rested : session.executor.reap = session.executor := by
    simp only [Executor.reap, vacant]
  have synced :
      session.executor.sync session.queue.snapshot =
        session.executor.fill session.queue.snapshot := by
    simp only [Executor.sync, rested, vacant]
  have eligible : session.queue.snapshot.next?.map (·.1) = session.queue.snapshot.first? :=
    Snapshot.next?_eq_first? loaded.ready
  cases first : session.queue.snapshot.next? with
  | none =>
      rw [first, Option.map_none] at eligible
      have none_ : ∀ entry ∈ session.queue.entries, ¬ entry.runnable = true :=
        List.find?_eq_none.mp eligible.symm
      refine .inl ⟨?_, List.countP_eq_zero.mpr none_⟩
      simp only [Session.claimSlot, synced, Executor.fill, first]
  | some chosen =>
      obtain ⟨entry, file⟩ := chosen
      obtain ⟨member, allowed, held⟩ := Snapshot.next?_eq_some first
      have runnable : entry.runnable = true :=
        ((loaded.ready entry member).isEligible_eq).symm.trans allowed
      have current : ¬ session.queue.snapshot.reportsSeen < session.executor.emitted :=
        Nat.not_lt_of_le (Nat.le_of_eq loaded.counted)
      have clear : { session.executor with failed := none } = session.executor := by
        rw [← loaded.unmarked]
      refine .inr ⟨entry, file, rfl, loaded.tidy.find?_of_mem member, runnable, held, ?_⟩
      simp only [Session.claimSlot, synced, Executor.fill, first, loaded.unmarked, reduceCtorEq,
        ↓reduceIte, clear, current]

theorem engine?_launch
    (executor : Executor)
    (entry : Entry)
    (file : FileHandle) :
    (executor.launch entry file).engine? executor.runs.length =
      some (Engine.new executor.tuning entry.path file entry.uploaded).start := by
  simp only [Executor.engine?, Executor.launch, List.getElem?_concat_length, Option.map_some]

/-- The engine that held the slot gives it back once it has come to rest. -/
theorem freeSlot_eq
    {executor : Executor}
    {entry : Entry}
    {file : FileHandle}
    {seen : Nat}
    (launched :
      session.executor = { executor.launch entry file with emitted := seen })
    (rested : Engine) :
    ∃ runs,
      session.freeSlot executor.runs.length rested =
        { session with executor := { executor with
            runs := runs, holder := none, emitted := seen } } := by
  simp only [freeSlot, launched, Executor.launch, Executor.modifyEngine, Executor.settle,
    Executor.modifyRun, Executor.release, Executor.holder?, Option.bind_some,
    List.getElem?_modify, List.getElem?_concat_length, Option.map_eq_map, Option.map_some,
    ↓reduceIte, beq_self_eq_true]
  exact ⟨_, rfl⟩

/-! ## One turn -/

/-- The engine of the entry that gets the slot begins its turn. -/
theorem Loaded.turn
    {entry : Entry}
    {file : FileHandle}
    (loaded : Loaded target session)
    (found : session.queue.find? entry.path = some entry)
    (runnable : entry.runnable = true)
    (held : entry.file = some file)
    (holds : file.Holds bytes)
    (partway : session.endpoint.Partway entry.path bytes) :
    let claimed := { session with executor := session.executor.launch entry file }
    Turn claimed entry.path bytes claimed
      (Engine.new session.executor.tuning entry.path file entry.uploaded).start := by
  intro claimed
  have member := Queue.mem_of_find? found
  have size : entry.size = bytes.length := (loaded.tidy.fits member held).symm.trans holds.size
  have below : entry.uploaded < bytes.length := size ▸ (loaded.ready entry member).below
  refine ⟨loaded.online, nofun, rfl, .start loaded.pace holds below partway loaded.fails, ?_,
    loaded.tidy, loaded.ready, rfl, fun _ => .refl _ _, ?_, nofun⟩
  · simp only [claimed, Executor.launch, loaded.counted]
  · exact fun _ => ⟨rfl, entry, found, runnable, size⟩

/-- There is enough to do for an engine to come to its end. -/
theorem remaining_le_patience
    (session : Session)
    (tuning : Tuning)
    (path : String)
    (file : FileHandle)
    (uploaded : Nat) :
    let engine := (Engine.new tuning path file uploaded).start
    Transfer.remaining engine session.endpoint ≤ session.patience engine := by
  intro engine
  have less :
      8 * (session.endpoint.cannedLeft + file.size + 4) ≤
        8 * (session.endpoint.cannedLeft + file.size + 4) * (Nat.pow 2 64 + 1) :=
    Nat.le_mul_of_pos_right _ (Nat.succ_pos _)
  have remaining :
      Transfer.remaining engine session.endpoint =
        8 * (session.endpoint.cannedLeft + file.size + 1) + 2 * (tuning.createLimit - 1) + 9 :=
    rfl
  have patience :
      session.patience engine =
        2 * tuning.createLimit +
          8 * (session.endpoint.cannedLeft + file.size + 4) * (Nat.pow 2 64 + 1) :=
    rfl
  rw [remaining, patience]
  omega

/-- Once its engine has ended, the session is ready for the turn of another path. -/
theorem Turn.loaded
    {entry : Entry}
    {file : FileHandle}
    {final : Session}
    {rested : Engine}
    (turn :
      Turn { session with executor := session.executor.launch entry file } path bytes final rested)
    (ended : rested.hasEnded = true)
    (loaded : Loaded target session)
    (asked : target path = some bytes) :
    let freed := final.freeSlot session.executor.runs.length rested
    Loaded target freed ∧ freed.queue.runnables < session.queue.runnables := by
  obtain ⟨runs, freed⟩ := freeSlot_eq turn.executor rested
  obtain ⟨fewer, concluded⟩ := turn.ended ended
  rw [freed]
  refine ⟨⟨turn.online, turn.driven.fails, loaded.inline, rfl, loaded.unmarked, rfl, loaded.pace,
    turn.tidy, turn.ready, ?_, ?_⟩, fewer⟩
  · intro other queued found runnable
    have here : final.queue.find? other = some queued := found
    by_cases same : other = path
    · subst same
      rw [concluded.paused queued here] at runnable
      cases runnable
    · obtain ⟨file, content, held, wanted, holds, partway⟩ :=
        loaded.waiting ((turn.queued same).symm.trans here) runnable
      exact ⟨file, content, held, wanted, holds, (turn.stored same).partway partway⟩
  · intro other content wanted
    by_cases same : other = path
    · subst same
      cases asked.symm.trans wanted
      exact .inr (concluded.congr rfl (.refl _ _))
    · rcases loaded.settled wanted with ⟨queued, found, runnable⟩ | done
      · exact .inl ⟨queued, (turn.queued same).trans found, runnable⟩
      · exact .inr (done.congr (turn.queued same) (turn.stored same))

/-! ## All turns -/

/-- An entry was given the slot, and its engine has run to its end. -/
structure TurnTaken (target : String → Option Bytes) (session : Session) (entry : Entry)
    (file : FileHandle) (bytes : Bytes) (final : Session) (rested : Engine) : Prop where
  first : session.queue.snapshot.next? = some (entry, file)
  found : session.queue.find? entry.path = some entry
  runnable : entry.runnable = true
  held : entry.file = some file
  wanted : target entry.path = some bytes
  holds : file.Holds bytes
  partway : session.endpoint.Partway entry.path bytes
  ran :
    let claimed := { session with executor := session.executor.launch entry file }
    let engine := (Engine.new session.executor.tuning entry.path file entry.uploaded).start
    claimed.runEngine engine (claimed.patience engine) = (final, rested)
  turn :
    Turn { session with executor := session.executor.launch entry file } entry.path bytes final
      rested
  ended : rested.hasEnded = true

/-- Of several turns one entry has the first, unless there is none that may run. -/
theorem Loaded.drainFor_succ
    (loaded : Loaded target session)
    (turns : Nat) :
    (session.drainFor (turns + 1) = session ∧ session.queue.runnables = 0) ∨
      ∃ entry file bytes final rested,
        TurnTaken target session entry file bytes final rested ∧
          session.drainFor (turns + 1) =
            (final.freeSlot session.executor.runs.length rested).drainFor turns := by
  rw [Session.drainFor]
  rcases loaded.claimSlot_cases with
    ⟨unclaimed, empty⟩ | ⟨entry, file, first, found, runnable, held, claimed⟩
  · rw [unclaimed]
    exact .inl ⟨rfl, empty⟩
  · obtain ⟨_, bytes, same, wanted, holds, partway⟩ := loaded.waiting found runnable
    cases held.symm.trans same
    have begun := loaded.turn found runnable held holds partway
    obtain ⟨final, rested, ran, turn, ended⟩ :=
      begun.runEngine loaded.inline (remaining_le_patience _ _ _ _ _)
    refine .inr ⟨entry, file, bytes, final, rested,
      ⟨first, found, runnable, held, wanted, holds, partway, ran, turn, ended⟩, ?_⟩
    simp only [claimed, engine?_launch, ran]

/-- With a turn for every runnable entry there is none left at the end. -/
theorem Loaded.drainFor
    {turns : Nat}
    (loaded : Loaded target session)
    (enough : session.queue.runnables ≤ turns) :
    Loaded target (session.drainFor turns) ∧ (session.drainFor turns).queue.runnables = 0 := by
  -- A turn that is taken keeps `Loaded` and uses up a runnable entry; without one, none is left.
  induction turns generalizing session with
  | zero => exact ⟨loaded, Nat.le_zero.mp enough⟩
  | succ turns later =>
      rcases loaded.drainFor_succ turns with ⟨same, empty⟩ | ⟨_, _, _, _, _, taken, goes⟩
      · rw [same]
        exact ⟨loaded, empty⟩
      · obtain ⟨kept, fewer⟩ := taken.turn.loaded taken.ended loaded taken.wanted
        rw [goes]
        exact later kept (Nat.le_of_lt_succ (Nat.lt_of_lt_of_le fewer enough))

/-- Draining brings every path to its end. -/
theorem Loaded.drain
    (loaded : Loaded target session)
    (wanted : target path = some bytes) :
    session.drain.Concluded path bytes := by
  obtain ⟨drained, rested⟩ := loaded.drainFor List.countP_le_length
  rcases drained.settled wanted with ⟨entry, found, runnable⟩ | concluded
  · exact absurd runnable (List.countP_eq_zero.mp rested entry (Queue.mem_of_find? found))
  · exact concluded

end Session

end ResumableUpload
