import ResumableUpload.Proofs.Session.Turns
import ResumableUpload.Proofs.Transfer.Recovery

/-!
# The chunks that a session sends

`Session.sentBy` lists the chunks that leave a session while it runs an engine.  If every call is
answered and the engine begins where the stored bytes end, they tile the rest of the file: each begins
where the one before it ended, and the last one ends with the file (`Tiles`).  Put together they are
what the endpoint lacked of the file, and nothing else (`Tiles.joined?_eq`).
-/

namespace ResumableUpload

/-- A chunk as it leaves for the endpoint. -/
structure SentChunk where
  path : String
  offset : Nat
  content : String
deriving DecidableEq, Repr

/-- What chunks contain, put together; nothing if the text of one of them is not a chunk's. -/
def SentChunk.joined? : List SentChunk → Option Bytes
  | [] => some []
  | chunk :: rest =>
    (Base64.decode? chunk.content).bind fun piece => (joined? rest).map fun later => piece ++ later

/-- What the endpoint notes of a chunk. -/
def SentChunk.place (chunk : SentChunk) : String × Nat :=
  (chunk.path, chunk.offset)

/-- The chunk that an engine sends, if that is what it does next. -/
def Engine.sends? (engine : Engine) : Option SentChunk :=
  match engine.phase with
  | .sending content => some ⟨engine.path, engine.offset, content⟩
  | _ => none

theorem Engine.sends?_cases (engine : Engine) :
    (∃ content, engine.phase = .sending content ∧
        engine.sends? = some ⟨engine.path, engine.offset, content⟩) ∨
      (∀ content, engine.phase ≠ .sending content) ∧ engine.sends? = none := by
  unfold sends?
  split
  case h_1 content phase => exact .inl ⟨content, phase, rfl⟩
  case h_2 unsending => exact .inr ⟨unsending, rfl⟩

/-- The chunks that are sent while an engine is run. -/
def Session.sentBy (session : Session) (engine : Engine) : (fuel : Nat) → List SentChunk
  | 0 => []
  | fuel + 1 =>
    if engine.hasEnded then []
    else
      let (advanced, next, report) := session.advance engine
      engine.sends?.toList ++ (advanced.hear report).sentBy next fuel

/-! ## Chunks that tile the rest of a file -/

/-- The chunks go from an offset to the end of a file, without a gap and without a byte sent twice. -/
inductive Tiles (path : String) (bytes : Bytes) : Nat → List SentChunk → Prop where
  | done : Tiles path bytes bytes.length []
  | chunk {content : String} {offset last : Nat} {rest : List SentChunk}
      (further : offset < last)
      (within : last ≤ bytes.length)
      (piece : Base64.decode? content = some (bytes.slice offset last))
      (later : Tiles path bytes last rest) :
      Tiles path bytes offset (⟨path, offset, content⟩ :: rest)

namespace Tiles

variable {path : String} {bytes : Bytes} {offset : Nat} {chunks : List SentChunk}

theorem path_eq (tiles : Tiles path bytes offset chunks) :
    ∀ chunk ∈ chunks, chunk.path = path := by
  induction tiles with
  | done => nofun
  | chunk _ _ _ _ same => exact List.forall_mem_cons.mpr ⟨rfl, same⟩

/-- Put together, the chunks are the file from the offset to its end. -/
theorem joined?_eq (tiles : Tiles path bytes offset chunks) :
    SentChunk.joined? chunks = some (bytes.drop offset) := by
  induction tiles with
  | done => rw [SentChunk.joined?, List.drop_length]
  | chunk further _ piece _ later =>
      simp only [SentChunk.joined?, piece, later, Option.bind_some, Option.map_some,
        Bytes.slice_append_drop (Nat.le_of_lt further)]

end Tiles

/-! ## Chunks of several paths -/

namespace SentChunk

variable {path other : String} {first later : List SentChunk}

/-- Chunks of one path before those of other paths are all that there are of it. -/
theorem filter_append_self
    (ours : ∀ chunk ∈ first, chunk.path = path)
    (others : ∀ chunk ∈ later, chunk.path ≠ path) :
    (first ++ later).filter (·.path == path) = first := by
  have all : first.filter (·.path == path) = first :=
    List.filter_eq_self.mpr fun chunk member => beq_iff_eq.mpr (ours chunk member)
  have none_ : later.filter (·.path == path) = [] :=
    List.filter_eq_nil_iff.mpr fun chunk member same => others chunk member (beq_iff_eq.mp same)
  rw [List.filter_append, all, none_, List.append_nil]

theorem filter_append_of_ne
    (ours : ∀ chunk ∈ first, chunk.path = path)
    (differs : other ≠ path)
    (later : List SentChunk) :
    (first ++ later).filter (·.path == other) = later.filter (·.path == other) := by
  have none_ : first.filter (·.path == other) = [] := by
    refine List.filter_eq_nil_iff.mpr fun chunk member same => ?_
    exact differs ((beq_iff_eq.mp same).symm.trans (ours chunk member))
  rw [List.filter_append, none_, List.nil_append]

end SentChunk

/-! ## One thing that an engine does -/

namespace Transfer

variable {engine next : Engine} {endpoint after : Endpoint} {act : Engine.Act} {bytes : Bytes}

/-- Of what an engine does the endpoint sees a chunk if the engine sends one. -/
theorem chunkOffsets_of_serve? (served : serve? engine endpoint = some (act, after)) :
    after.chunkOffsets =
      endpoint.chunkOffsets ++ engine.sends?.toList.map SentChunk.place := by
  unfold serve? at served
  unfold Engine.sends? Endpoint.chunkOffsets
  cases phase : engine.phase with
  | creating =>
      simp only [phase] at served
      cases served
      simp only [Endpoint.calls_create, List.filterMap_append]
      rfl
  | sending content =>
      simp only [phase] at served
      cases served
      simp only [Endpoint.calls_chunk, List.filterMap_append]
      rfl
  | resyncing =>
      simp only [phase] at served
      cases served
      simp only [Endpoint.calls_status, List.filterMap_append]
      rfl
  | accepted | refused | concluding =>
      simp only [phase] at served
      obtain ⟨_, _, noted⟩ := Option.map_eq_some_iff.mp served
      cases noted
      exact (List.append_nil _).symm
  | checking | reading | pausingCreate | backingOff =>
      simp only [phase] at served
      cases served
      exact (List.append_nil _).symm
  | idle | ended =>
      simp only [phase] at served
      cases served

/-- An engine that is about to send a chunk goes on with the answer to it. -/
theorem afterChunk_of_sending
    {content : String}
    (phase : engine.phase = .sending content)
    (step : Engine.Step engine act next)
    (served : serve? engine endpoint = some (act, after)) :
    next = engine.afterChunk (endpoint.chunk engine.path content engine.offset).2 := by
  simp only [serve?, phase] at served
  obtain ⟨rfl, rfl⟩ := Prod.mk.inj (Option.some.inj served)
  generalize (endpoint.chunk engine.path content engine.offset).2 = answer at step
  generalize sent : Engine.Act.chunk engine.offset content answer = act at step
  cases step <;> cases sent
  rfl

/-- What a level engine sends next goes before what tiles the file from there on. -/
theorem Level.tiles
    {rest : List SentChunk}
    (level : Level engine endpoint)
    (untroubled : Untroubled bytes engine endpoint)
    (step : Engine.Step engine act next)
    (served : serve? engine endpoint = some (act, after))
    (tiles : Tiles engine.path bytes next.offset rest) :
    Tiles engine.path bytes engine.offset (engine.sends?.toList ++ rest) := by
  rcases engine.sends?_cases with ⟨content, phase, sends⟩ | ⟨unsending, silent⟩
  · have exactly := untroubled.driven.exactly
    obtain ⟨left, rfl⟩ := exactly.sending phase
    have last : next.offset = engine.chunkLast := by
      rw [afterChunk_of_sending phase step served]
      exact (level.chunk untroubled phase).2
    rw [last] at tiles
    rw [sends, Option.toList_some, List.singleton_append]
    exact .chunk (exactly.offset_lt_chunkLast (Nat.le_refl 1) left)
      (exactly.size ▸ Nat.min_le_right _ _) (Base64.decode?_encode _) tiles
  · rw [silent, Option.toList_none, List.nil_append, ← level.offset_eq step unsending]
    exact tiles

end Transfer

/-! ## The turn of an engine that is level with the endpoint -/

namespace Session

variable {before session : Session} {engine : Engine} {path : String} {bytes : Bytes}

theorem endpoint_hear
    (session : Session)
    (report : Option Report) :
    (session.hear report).endpoint = session.endpoint := by
  cases report <;> rfl

/-- What holds while the engine of a path sends what the endpoint lacks, and every call is answered. -/
structure Resumes (before : Session) (path : String) (bytes : Bytes) (session : Session)
    (engine : Engine) : Prop where
  turn : Turn before path bytes session engine
  unscripted : session.endpoint.Unscripted
  unstopped : engine.stopRequested = false
  level : Transfer.Level engine session.endpoint
  gone : engine.hasEnded = true → session.queue.find? path = none

namespace Resumes

theorem untroubled (resumes : Resumes before path bytes session engine) :
    Transfer.Untroubled bytes engine session.endpoint :=
  ⟨resumes.turn.driven, resumes.unscripted, resumes.unstopped⟩

/-- The last report has the entry leave the queue, as all of the file is sent. -/
theorem gone_of_last
    {report : Report}
    (resumes : Resumes before path bytes session engine)
    (made : engine.report? = some report)
    (last : engine.afterReport.hasEnded = true) :
    (session.queue.reconcile report).find? path = none := by
  have level := resumes.level
  have faithful := resumes.turn.driven.faithful
  have ordered := faithful.ordered
  unfold Engine.report? at made
  split at made
  case h_1 phase =>
      simp only [Engine.hasEnded, Engine.outcome?, Engine.afterReport, phase] at last
      cases last
  case h_2 phase => simp only [Transfer.Level, phase] at level
  case h_3 outcome phase =>
      have going : engine.hasEnded = false := by
        simp only [Engine.hasEnded, Engine.outcome?, phase, Option.isSome_none]
      obtain ⟨_, entry, found, _, size⟩ := resumes.turn.going going
      simp only [Transfer.Level, phase] at level
      subst level
      simp only [Engine.Ordered, phase] at ordered
      cases made
      have reached : entry.size ≤ engine.offset := by
        rw [size, ordered, faithful.size_eq]
      rw [resumes.turn.tidy.find?_reconcile, if_pos resumes.turn.path_eq.symm, found,
        Option.bind_some, if_pos reached]
  case h_4 => cases made

/-- The endpoint sees the chunk that the engine sends next, and the rest goes on behind it. -/
theorem advance
    (resumes : Resumes before path bytes session engine)
    (inline : before.executor.hosting = .inline)
    (going : engine.hasEnded = false) :
    ∃ advanced next report,
      session.advance engine = (advanced, next, report) ∧
        Resumes before path bytes (advanced.hear report) next ∧
        (advanced.hear report).endpoint.chunkOffsets =
          session.endpoint.chunkOffsets ++ engine.sends?.toList.map SentChunk.place ∧
        ∀ {rest : List SentChunk}, Tiles path bytes next.offset rest →
          Tiles path bytes engine.offset (engine.sends?.toList ++ rest) := by
  obtain ⟨turn, unscripted, unstopped, level, _⟩ := id resumes
  obtain ⟨act, endpoint, next, served, step, advanced⟩ :=
    advance_eq turn.online turn.begun going
  have kept := turn.advance inline going
  rw [advanced] at kept
  have untroubled := resumes.untroubled
  have following := untroubled.step step served
  refine ⟨_, next, act.report?, advanced, ?_, ?_, ?_⟩
  · refine ⟨kept.1, ?_, following.unstopped, ?_, ?_⟩
    · rw [endpoint_hear]
      exact following.unscripted
    · rw [endpoint_hear]
      exact (level.step untroubled step served).2
    · intro ended
      obtain ⟨report, rfl, _⟩ := step.ends ended
      obtain ⟨made, rfl⟩ := step.report_made
      exact resumes.gone_of_last made ended
  · rw [endpoint_hear]
    exact Transfer.chunkOffsets_of_serve? served
  · intro rest tiles
    rw [← turn.path_eq] at tiles ⊢
    exact level.tiles untroubled step served tiles

/-- An engine that has ended has sent all of its file. -/
theorem offset_eq_of_ended
    (resumes : Resumes before path bytes session engine)
    (ended : engine.hasEnded = true) :
    engine.offset = bytes.length := by
  have level := resumes.level
  have faithful := resumes.turn.driven.faithful
  have ordered := faithful.ordered
  unfold Engine.hasEnded Engine.outcome? at ended
  split at ended
  case h_1 outcome phase =>
      simp only [Transfer.Level, phase] at level
      subst level
      simp only [Engine.Ordered, phase] at ordered
      exact ordered.trans faithful.size_eq
  case h_2 => cases ended

/-- The endpoint sees the chunks that are sent, and the rest goes on behind them. -/
theorem runEngine
    (resumes : Resumes before path bytes session engine)
    (inline : before.executor.hosting = .inline)
    (fuel : Nat) :
    let (final, rested) := session.runEngine engine fuel
    Resumes before path bytes final rested ∧
      final.endpoint.chunkOffsets =
        session.endpoint.chunkOffsets ++ (session.sentBy engine fuel).map SentChunk.place ∧
      ∀ {rest : List SentChunk}, Tiles path bytes rested.offset rest →
        Tiles path bytes engine.offset (session.sentBy engine fuel ++ rest) := by
  -- What is sent from an engine on begins with what it sends next.
  induction fuel generalizing session engine with
  | zero => exact ⟨resumes, (List.append_nil _).symm, id⟩
  | succ fuel later =>
      unfold Session.runEngine Session.sentBy
      cases going : engine.hasEnded with
      | true => exact ⟨resumes, (List.append_nil _).symm, id⟩
      | false =>
          obtain ⟨advanced, next, report, moved, kept, seen, first⟩ :=
            resumes.advance inline going
          obtain ⟨final, sent, others⟩ := later kept
          simp only [moved, Bool.false_eq_true, ↓reduceIte]
          refine ⟨final, ?_, ?_⟩
          · rw [sent, seen, List.map_append, List.append_assoc]
          · intro rest tiles
            rw [List.append_assoc]
            exact first (others tiles)

/-- An engine that is given enough to do comes to its end, and its chunks tile what was lacking. -/
theorem completes
    {fuel : Nat}
    (resumes : Resumes before path bytes session engine)
    (inline : before.executor.hosting = .inline)
    (enough : Transfer.remaining engine session.endpoint ≤ fuel) :
    ∃ final rested,
      session.runEngine engine fuel = (final, rested) ∧
        Resumes before path bytes final rested ∧ rested.hasEnded = true ∧
        final.endpoint.chunkOffsets =
          session.endpoint.chunkOffsets ++ (session.sentBy engine fuel).map SentChunk.place ∧
        Tiles path bytes engine.offset (session.sentBy engine fuel) := by
  obtain ⟨final, rested, ran, _, ended⟩ := resumes.turn.runEngine inline enough
  have run := resumes.runEngine inline fuel
  rw [ran] at run
  obtain ⟨kept, seen, tiles⟩ := run
  refine ⟨final, rested, ran, kept, ended, seen, ?_⟩
  rw [kept.offset_eq_of_ended ended] at tiles
  rw [← List.append_nil (session.sentBy engine fuel)]
  exact tiles .done

end Resumes

end Session

end ResumableUpload
