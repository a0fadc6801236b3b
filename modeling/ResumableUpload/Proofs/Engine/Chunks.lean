import ResumableUpload.Proofs.Engine.Steps
import ResumableUpload.Proofs.Pace
import ResumableUpload.Proofs.Trace

/-!
# What an engine sends

An engine that is left to itself meets with two kinds of events: it does something, which the world
answers as it likes, and it can be told to stop.  The only thing that is asked of the world is that a
read which succeeds brings what the file holds in the range that is read.

The offset is then always the one that was confirmed last (`lastConfirmed`), and a chunk is the piece
of the file from there to the end of the current length: `Exact` is what every event keeps.
-/

namespace ResumableUpload.Engine

/-! ## What one step does to the offset and the length -/

/-- The offset that an act confirms: the one of a successful answer to a chunk or status call. -/
def Act.confirmed? (policy : Policy) : Act → Option Nat
  | .chunk _ _ answer | .status answer =>
    match policy.classify answer with
    | .success reply => some reply.uploaded
    | .fatal _ | .retryable _ => none
  | .create _ | .read _ | .report _ | .check | .wait => none

variable {engine next : Engine} {act : Act}

theorem Step.tuning_eq
    (step : Step engine act next) :
    next.tuning = engine.tuning := by
  obtain ⟨_, _, _, rfl⟩ := step.frame
  rfl

/-- The offset changes to what is confirmed, held to the size, and in no other way. -/
theorem Step.offset_eq
    (step : Step engine act next) :
    next.offset =
      match act.confirmed? engine.tuning.policy with
      | some uploaded => min uploaded engine.size
      | none => engine.offset := by
  cases step with
  | create phase answer =>
      simp only [Act.confirmed?, afterCreate]
      split
      · rfl
      · rfl
      · split <;> rfl
  | retryCreate => rfl
  | check =>
      simp only [Act.confirmed?, Engine.check]
      split
      · split <;> rfl
      · rfl
  | read _ found => cases found <;> rfl
  | chunk phase answer =>
      simp only [Act.confirmed?, afterChunk]
      cases engine.tuning.policy.classify answer with
      | success => rfl
      | fatal => rfl
      | retryable =>
          simp only [retreat]
          split <;> rfl
  | report => simp only [Act.confirmed?, afterReport]; split <;> rfl
  | backOff => rfl
  | status phase answer =>
      simp only [Act.confirmed?, afterStatus]
      cases engine.tuning.policy.classify answer <;> rfl

/-- The length grows, shrinks or stays. -/
theorem Step.chunkLength_cases
    (step : Step engine act next) :
    next.chunkLength = engine.chunkLength ∨
      next.chunkLength = engine.tuning.pace.grow engine.chunkLength ∨
      next.chunkLength = engine.tuning.pace.shrink engine.chunkLength := by
  cases step with
  | create phase answer =>
      unfold afterCreate
      split
      · exact .inl rfl
      · exact .inl rfl
      · split <;> exact .inl rfl
  | retryCreate => exact .inl rfl
  | check =>
      unfold Engine.check
      split
      · split <;> exact .inl rfl
      · exact .inl rfl
  | read _ found => cases found <;> exact .inl rfl
  | chunk phase answer =>
      unfold afterChunk
      split
      · exact .inr (.inl rfl)
      · exact .inl rfl
      · unfold retreat
        split
        · exact .inl rfl
        · exact .inr (.inr rfl)
  | report => unfold afterReport; split <;> exact .inl rfl
  | backOff => exact .inl rfl
  | status => unfold afterStatus; split <;> exact .inl rfl

theorem Step.keeps_length
    {least : Nat}
    (step : Step engine act next)
    (pace : engine.tuning.pace.Keeps least)
    (long : least ≤ engine.chunkLength) :
    least ≤ next.chunkLength := by
  rcases step.chunkLength_cases with same | grown | shrunk
  · exact same ▸ long
  · exact grown ▸ pace.grow long
  · exact shrunk ▸ pace.shrink long

/-- An engine only begins to read where there is something left of its file. -/
theorem Step.reading
    (step : Step engine act next)
    (reading : next.phase = .reading) :
    next.offset < next.size := by
  have leads := step.leads
  have stands := step.offset_eq
  rw [reading] at leads
  cases leads with
  | reads left _ =>
      rw [step.size_eq, stands]
      exact left

/-! ## Runs -/

/-- What happens to an engine. -/
inductive Event where
  | act (act : Act)
  /-- The engine is told to stop. -/
  | stop

/-- The events that an engine can meet with whose file holds these bytes. -/
inductive Goes (bytes : Bytes) : Engine → Event → Engine → Prop where
  | act {engine next : Engine} {act : Act}
      (step : Step engine act next)
      (truthful :
        ∀ {piece : Bytes}, act = .read (.ok piece) →
          piece = bytes.slice engine.offset engine.chunkLast) :
      Goes bytes engine (.act act) next
  | stop {engine : Engine} :
      Goes bytes engine .stop engine.requestStop

/-- The engine after an event, if it can meet with that. -/
def goes? (bytes : Bytes) (engine : Engine) : Event → Option Engine
  | .stop => some engine.requestStop
  | .act (.read (.ok piece)) =>
    if piece = bytes.slice engine.offset engine.chunkLast then engine.act? (.read (.ok piece))
    else none
  | .act act => engine.act? act

theorem goes_of_goes?
    {bytes : Bytes}
    {event : Event}
    (gone : goes? bytes engine event = some next) :
    Goes bytes engine event next := by
  unfold goes? at gone
  split at gone
  case h_1 =>
      cases gone
      exact .stop
  case h_2 piece =>
      split at gone
      case isTrue same =>
          refine .act (step_of_act? gone) ?_
          intro found read
          cases read
          exact same
      case isFalse => cases gone
  case h_3 act other =>
      refine .act (step_of_act? gone) ?_
      intro piece read
      exact absurd read (other piece)

/-- The offset that an event confirms. -/
def Event.confirmed? (policy : Policy) : Event → Option Nat
  | .act act => act.confirmed? policy
  | .stop => none

/-- The offset that was confirmed last, or else the one to begin with. -/
def lastConfirmed (policy : Policy) (uploaded : Nat) (events : List Event) : Nat :=
  (events.filterMap (Event.confirmed? policy)).getLastD uploaded

theorem lastConfirmed_concat
    (policy : Policy)
    (uploaded : Nat)
    (events : List Event)
    (event : Event) :
    lastConfirmed policy uploaded (events ++ [event]) =
      (event.confirmed? policy).getD (lastConfirmed policy uploaded events) := by
  unfold lastConfirmed
  rw [filterMap_concat]
  cases event.confirmed? policy with
  | none => rw [Option.toList_none, List.append_nil, Option.getD_none]
  | some confirmed => rw [Option.toList_some, List.getLastD_concat, Option.getD_some]

/-- In every run the offset is the one that was confirmed last, held to the size. -/
theorem offset_of_trace
    {tuning : Tuning}
    {path : String}
    {file : FileHandle}
    {uploaded : Nat}
    {bytes : Bytes}
    {events : List Event}
    (run : Trace (Goes bytes) (new tuning path file uploaded).start events engine) :
    engine.tuning = tuning ∧ engine.file = file ∧
      engine.offset = min (lastConfirmed tuning.policy uploaded events) file.size := by
  induction run with
  | refl => exact ⟨rfl, rfl, rfl⟩
  | snoc _ last held =>
      obtain ⟨tuned, same, offset⟩ := held
      rw [lastConfirmed_concat]
      cases last with
      | stop => exact ⟨tuned, same, offset⟩
      | @act _ act step _ =>
          refine ⟨step.tuning_eq.trans tuned, step.file_eq.trans same, ?_⟩
          rw [step.offset_eq, tuned]
          cases confirmed : act.confirmed? tuning.policy with
          | none => simpa only [Event.confirmed?, confirmed, Option.getD_none] using offset
          | some offset => simp only [Event.confirmed?, confirmed, size, same, Option.getD_some]

/-- What holds between any two events of an engine whose file holds these bytes. -/
structure Exact (bytes : Bytes) (least : Nat) (engine : Engine) : Prop where
  size : engine.size = bytes.length
  pace : engine.tuning.pace.Keeps least
  long : least ≤ engine.chunkLength
  /-- Something is left to read. -/
  reading : engine.phase = .reading → engine.offset < engine.size
  /-- The chunk is the next piece of the file, and there is something left to send. -/
  sending :
    ∀ {content : String}, engine.phase = .sending content →
      engine.offset < engine.size ∧
        content = Base64.encode (bytes.slice engine.offset engine.chunkLast)

namespace Exact

variable {bytes : Bytes} {least : Nat}

theorem start
    {tuning : Tuning}
    {file : FileHandle}
    (pace : tuning.pace.Keeps least)
    (size : file.size = bytes.length)
    (path : String)
    (uploaded : Nat) :
    Exact bytes least (new tuning path file uploaded).start where
  size := size
  pace := pace
  long := pace.start
  reading reading := by cases reading
  sending sending := by cases sending

/-- Every step of the engine keeps the chunks exact, if what it reads is in the file. -/
theorem step
    (exactly : Exact bytes least engine)
    (step : Step engine act next)
    (truthful :
      ∀ {piece : Bytes}, act = .read (.ok piece) →
        piece = bytes.slice engine.offset engine.chunkLast) :
    Exact bytes least next where
  size := step.size_eq.trans exactly.size
  pace := by
    rw [step.tuning_eq]
    exact exactly.pace
  long := step.keeps_length exactly.pace exactly.long
  reading := step.reading
  sending {content} sending := by
    obtain ⟨piece, read, phase, rfl⟩ := step.sending sending
    obtain rfl := truthful read
    cases sending
    exact ⟨exactly.reading phase, rfl⟩

theorem goes
    {event : Event}
    (exactly : Exact bytes least engine)
    (goes : Goes bytes engine event next) :
    Exact bytes least next := by
  cases goes with
  | act step truthful => exact exactly.step step truthful
  | stop => exact ⟨exactly.size, exactly.pace, exactly.long, exactly.reading, exactly.sending⟩

/-- Where there is something left, the next chunk is not empty. -/
theorem offset_lt_chunkLast
    (exactly : Exact bytes least engine)
    (proper : 1 ≤ least)
    (left : engine.offset < engine.size) :
    engine.offset < engine.chunkLast := by
  have long := exactly.long
  unfold chunkLast chunkEnd
  omega

theorem length_piece_pos
    (exactly : Exact bytes least engine)
    (proper : 1 ≤ least)
    (left : engine.offset < engine.size) :
    0 < (bytes.slice engine.offset engine.chunkLast).length := by
  have next := exactly.offset_lt_chunkLast proper left
  rw [Bytes.length_slice, ← exactly.size]
  omega

end Exact

/--
Whatever the endpoint answers, whenever a read fails and whenever the engine is told to stop: a chunk
starts at the offset that was confirmed last, held to the size of the file, and is the piece of the
file from there to the end of the current length.  That length is never below the floor, so no chunk
is empty; what is read lies within the file; and every report tells the same offset.
-/
theorem sends_from_confirmed_offset
    {config : Config}
    {path : String}
    {file : FileHandle}
    {uploaded : Nat}
    {bytes : Bytes}
    {events : List Event}
    (valid : config.check = .ok ())
    (word : config.chunkLength < Nat.pow 2 64)
    (size : file.size = bytes.length)
    (run :
      Trace (Goes bytes) (new (config.tuningWith scaleExactly) path file uploaded).start
        events engine)
    (goes : Goes bytes engine (.act act) next) :
    let offset := min (lastConfirmed config.policy uploaded events) bytes.length
    let last := min (offset + engine.chunkLength) bytes.length
    1 ≤ config.chunkLengthFloor ∧ config.chunkLengthFloor ≤ engine.chunkLength ∧
      match act with
      | .read _ => engine.offset = offset ∧ engine.chunkLast = last ∧ offset < last
      | .chunk sentAt content _ =>
        sentAt = offset ∧ content = Base64.encode (bytes.slice offset last) ∧ offset < last
      | .report report => report.uploaded = offset
      | .create _ | .status _ | .check | .wait => True := by
  intro offset last
  have floor : 1 ≤ config.chunkLengthFloor := (config.sound_of_check valid).floor
  have exactly : Exact bytes config.chunkLengthFloor engine :=
    run.invariant (.start (config.keeps_floor valid word) size path uploaded) Exact.goes
  obtain ⟨_, same, confirmed⟩ := offset_of_trace run
  have stands : engine.offset = offset := by
    rw [confirmed, size]
    rfl
  have ends : engine.chunkLast = last := by
    unfold chunkLast chunkEnd
    rw [stands, exactly.size]
  refine ⟨floor, exactly.long, ?_⟩
  cases goes with
  | act step _ =>
      cases step with
      | create | retryCreate | check | backOff | status => trivial
      | read phase =>
          refine ⟨stands, ends, ?_⟩
          rw [← stands, ← ends]
          exact exactly.offset_lt_chunkLast floor (exactly.reading phase)
      | chunk phase =>
          obtain ⟨left, piece⟩ := exactly.sending phase
          refine ⟨stands, ?_, ?_⟩
          · rw [← stands, ← ends]
            exact piece
          · rw [← stands, ← ends]
            exact exactly.offset_lt_chunkLast floor left
      | report made => exact (report?_eq_some made).2.trans stands

/-- The endpoint confirms one byte of two, and the second chunk starts there. -/
theorem second_chunk_starts_at_confirmed_offset :
    let config : Config := { chunkLength := 2 }
    let bytes : Bytes := [7, 8, 9]
    let engine :=
      (new (config.tuningWith scaleExactly) "a" ⟨0, .ofBytes bytes⟩ 0).start
    let confirmed : Answer StatusReply := .ok (Response.success ⟨"a", 1, 3⟩)
    let first : List Event :=
      [.act (.create (.ok (Response.success ⟨"a", 3⟩))), .act .check, .act (.read (.ok [7, 8])),
        .act (.chunk 0 (Base64.encode [7, 8]) confirmed), .act (.report ⟨"a", 1, true, ""⟩),
        .act .check, .act (.read (.ok [8, 9]))]
    ∃ last next,
      Trace (Goes bytes) engine first last ∧
        Goes bytes last (.act (.chunk 1 (Base64.encode [8, 9]) confirmed)) next ∧
        config.chunkLengthFloor ≤ last.chunkLength ∧
        Base64.encode [8, 9] =
          Base64.encode (bytes.slice 1 (min (1 + last.chunkLength) 3)) := by
  intro config bytes engine confirmed first
  have run : (first.foldlM (goes? bytes) engine).isSome = true := by decide
  obtain ⟨last, reached⟩ := Option.isSome_iff_exists.mp run
  have sent :
      ((first.foldlM (goes? bytes) engine).bind fun last =>
        goes? bytes last (.act (.chunk 1 (Base64.encode [8, 9]) confirmed))).isSome = true := by
    decide
  rw [reached, Option.bind_some] at sent
  obtain ⟨next, sends⟩ := Option.isSome_iff_exists.mp sent
  have trace := Trace.of_foldlM (Goes bytes) goes_of_goes? reached
  have goes := goes_of_goes? sends
  have valid : config.check = .ok () := Config.check_eq_ok_iff.mpr (by decide)
  have word : config.chunkLength < Nat.pow 2 64 := by decide
  obtain ⟨_, long, _, piece, _⟩ := sends_from_confirmed_offset valid word rfl trace goes
  exact ⟨last, next, trace, goes, long, piece⟩

end ResumableUpload.Engine
