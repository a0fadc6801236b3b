import ResumableUpload.Proofs.Engine.Reports
import ResumableUpload.Proofs.Transfer.Steps

/-!
# The calls that an engine makes

Whatever it is answered, an engine first makes create calls, each but the first after one that may be
tried again, and once one was accepted it goes through rounds: a chunk call, and a status call if the
chunk failed in a way that may pass and can be shortened.  `Protocol` says so of the calls made so far
and `Complete` of those of an engine that has ended; `Awaits` tells from the phase of an engine which
calls can come next, and every step keeps it.

After some answers no call follows at all (`Moment.Closes`).
-/

namespace ResumableUpload

namespace Engine

variable {begun engine next final : Engine} {act : Act} {moment : Moment} {moments : List Moment}

/-- How often an engine tries to open its upload. -/
def attempts (engine : Engine) : Nat :=
  max engine.tuning.createLimit 1

namespace Moment

/-- The call of the endpoint that is made. -/
def call? (moment : Moment) : Option EndpointCall :=
  match moment.event with
  | .act (.create _) => some (.create moment.engine.path moment.engine.size)
  | .act (.chunk offset content _) =>
    some (.chunk moment.engine.path offset content.utf8ByteSize)
  | .act (.status _) => some (.status moment.engine.path)
  | .act (.read _) | .act (.report _) | .act .check | .act .wait | .stop => none

/-- A create call is accepted. -/
def Opens (moment : Moment) : Prop :=
  match moment.event with
  | .act (.create answer) =>
    ∃ body, moment.engine.tuning.policy.classifyCreate answer = .success body
  | _ => False

/-- A create call fails in a way that may pass. -/
def Retries (moment : Moment) : Prop :=
  match moment.event with
  | .act (.create answer) =>
    ∃ reason, moment.engine.tuning.policy.classifyCreate answer = .retryable reason
  | _ => False

/--
No call can follow: a call failed for good, the file could not be read, the chunk that failed cannot
be shortened, or the offset that was adopted is the size of the file.
-/
def Closes (moment : Moment) : Prop :=
  match moment.event with
  | .act (.create answer) =>
    ∃ status, moment.engine.tuning.policy.classifyCreate answer = .fatal status
  | .act (.read found) => ∃ error, found = .error error
  | .act (.chunk _ _ answer) =>
    match moment.engine.tuning.policy.classify answer with
    | .success reply => (moment.engine.adopt reply.uploaded).offset = moment.engine.size
    | .fatal _ => True
    | .retryable _ => moment.engine.chunkLength ≤ moment.engine.tuning.pace.floor
  | .act (.status answer) =>
    match moment.engine.tuning.policy.classify answer with
    | .success reply => (moment.engine.adopt reply.uploaded).offset = moment.engine.size
    | .fatal _ => True
    | .retryable _ => False
  | .act (.report _) | .act .check | .act .wait | .stop => False

theorem not_retries_of_opens
    (opens : moment.Opens) :
    ¬ moment.Retries := by
  obtain ⟨engine, event⟩ := moment
  cases event with
  | stop => exact opens.elim
  | act act =>
      cases act with
      | create answer =>
          rintro ⟨reason, retried⟩
          obtain ⟨body, accepted⟩ := opens
          rw [accepted] at retried
          cases retried
      | read | chunk | status | report | check | wait => exact opens.elim

end Moment

/-! ## The protocol -/

/-- A chunk call, and the status call that comes of it. -/
structure Round where
  chunk : Moment
  status : Option Moment

namespace Round

/-- The calls of a round. -/
def calls (round : Round) : List Moment :=
  round.chunk :: round.status.toList

/-- There is a status call exactly if the chunk failed, but may be sent again and shorter. -/
def Settled (round : Round) : Prop :=
  round.status.isSome = round.chunk.refused?.isSome

end Round

/-- The last create call was accepted. -/
def Opened (creates : List Moment) : Prop :=
  ∃ last, creates.getLast? = some last ∧ last.Opens

/-- What holds of the calls that an engine has made so far. -/
structure Protocol (begun : Engine) (creates : List Moment) (rounds : List Round) : Prop where
  few : creates.length ≤ begun.attempts
  created : ∀ create ∈ creates, create.call? = some (.create begun.path begun.size)
  retried : ∀ create ∈ creates.dropLast, create.Retries
  opened : rounds ≠ [] → Opened creates
  sent :
    ∀ round ∈ rounds, ∃ offset length,
      round.chunk.call? = some (.chunk begun.path offset length)
  asked :
    ∀ round ∈ rounds, ∀ status, round.status = some status →
      status.call? = some (.status begun.path) ∧ round.chunk.refused?.isSome = true
  settled : ∀ round ∈ rounds.dropLast, round.Settled

/-- What holds besides of the calls of an engine that makes no more. -/
structure Complete (begun : Engine) (creates : List Moment) (rounds : List Round) : Prop where
  called : creates ≠ []
  exhausted :
    ∀ last, creates.getLast? = some last → last.Retries → creates.length = begun.attempts
  settled : ∀ round ∈ rounds, round.Settled

namespace Protocol

variable {creates : List Moment} {rounds : List Round}

theorem empty (begun : Engine) : Protocol begun [] [] where
  few := Nat.zero_le _
  created _ member := absurd member List.not_mem_nil
  retried _ member := absurd member List.not_mem_nil
  opened some := absurd rfl some
  sent _ member := absurd member List.not_mem_nil
  asked _ member := absurd member List.not_mem_nil
  settled _ member := absurd member List.not_mem_nil

theorem create
    (protocol : Protocol begun creates [])
    (retried : ∀ create ∈ creates, create.Retries)
    (below : creates.length < begun.attempts)
    (called : moment.call? = some (.create begun.path begun.size)) :
    Protocol begun (creates ++ [moment]) [] where
  few := by
    rw [List.length_append, List.length_singleton]
    exact below
  created := by
    rw [List.forall_mem_append, List.forall_mem_singleton]
    exact ⟨protocol.created, called⟩
  retried := by
    rw [List.dropLast_concat]
    exact retried
  opened some := absurd rfl some
  sent _ member := absurd member List.not_mem_nil
  asked _ member := absurd member List.not_mem_nil
  settled _ member := absurd member List.not_mem_nil

theorem chunk
    {offset length : Nat}
    (protocol : Protocol begun creates rounds)
    (opened : Opened creates)
    (settled : ∀ round ∈ rounds, round.Settled)
    (called : moment.call? = some (.chunk begun.path offset length)) :
    Protocol begun creates (rounds ++ [⟨moment, none⟩]) where
  few := protocol.few
  created := protocol.created
  retried := protocol.retried
  opened _ := opened
  sent := by
    rw [List.forall_mem_append, List.forall_mem_singleton]
    exact ⟨protocol.sent, offset, length, called⟩
  asked := by
    rw [List.forall_mem_append, List.forall_mem_singleton]
    refine ⟨protocol.asked, ?_⟩
    rintro _ ⟨⟩
  settled := by
    rw [List.dropLast_concat]
    exact settled

theorem status
    {chunk : Moment}
    (protocol : Protocol begun creates (rounds ++ [⟨chunk, none⟩]))
    (refused : chunk.refused?.isSome = true)
    (called : moment.call? = some (.status begun.path)) :
    Protocol begun creates (rounds ++ [⟨chunk, some moment⟩]) where
  few := protocol.few
  created := protocol.created
  retried := protocol.retried
  opened _ := protocol.opened (List.append_ne_nil_of_right_ne_nil _ (List.cons_ne_nil _ _))
  sent := by
    have past := protocol.sent
    rw [List.forall_mem_append, List.forall_mem_singleton] at past ⊢
    exact past
  asked := by
    have past := protocol.asked
    rw [List.forall_mem_append, List.forall_mem_singleton] at past ⊢
    refine ⟨past.1, ?_⟩
    rintro _ ⟨⟩
    exact ⟨called, refused⟩
  settled := by
    have past := protocol.settled
    rw [List.dropLast_concat] at past ⊢
    exact past

end Protocol

theorem opened_concat
    (creates : List Moment)
    (opens : moment.Opens) :
    Opened (creates ++ [moment]) :=
  ⟨moment, List.getLast?_concat, opens⟩

/-- An engine whose last create call was accepted has made as many as it had to. -/
theorem Opened.complete
    {creates : List Moment}
    {rounds : List Round}
    (opened : Opened creates)
    (settled : ∀ round ∈ rounds, round.Settled) :
    Complete begun creates rounds := by
  obtain ⟨last, found, opens⟩ := opened
  constructor
  · rintro rfl
    cases found
  · intro other same retries
    rw [found] at same
    cases same
    exact absurd retries (Moment.not_retries_of_opens opens)
  · exact settled

/-- If the last create call may be tried again there is none left to try. -/
theorem complete_concat
    {creates : List Moment}
    (exhausted : moment.Retries → creates.length + 1 = begun.attempts) :
    Complete begun (creates ++ [moment]) [] where
  called := List.append_ne_nil_of_right_ne_nil _ (List.cons_ne_nil _ _)
  exhausted last found retries := by
    rw [List.getLast?_concat] at found
    cases found
    rw [List.length_append]
    exact exhausted retries
  settled _ member := absurd member List.not_mem_nil

/-! ## What an engine calls next -/

/-- What the phase of an engine tells about the calls that it has made. -/
def Awaits (begun : Engine) (creates : List Moment) (rounds : List Round) : Phase → Prop
  | .idle => False
  | .creating attempt =>
    attempt = creates.length + 1 ∧ attempt ≤ begun.attempts ∧ rounds = [] ∧
      ∀ create ∈ creates, create.Retries
  | .pausingCreate attempt =>
    attempt = creates.length ∧ attempt < begun.attempts ∧ rounds = [] ∧
      ∀ create ∈ creates, create.Retries
  | .checking | .reading | .sending _ | .accepted =>
    Opened creates ∧ ∀ round ∈ rounds, round.Settled
  | .refused _ | .backingOff | .resyncing =>
    Opened creates ∧ ∃ earlier chunk,
      rounds = earlier ++ [⟨chunk, none⟩] ∧ chunk.refused?.isSome = true ∧
        ∀ round ∈ earlier, round.Settled
  | .concluding _ | .ended _ => Complete begun creates rounds

/-- A chunk call that fails and can be sent again shorter is to be followed by a status call. -/
theorem awaits_afterChunk
    {creates : List Moment}
    {rounds : List Round}
    (opened : Opened creates)
    (settled : ∀ round ∈ rounds, round.Settled)
    (engine : Engine)
    (offset : Nat)
    (content : String)
    (answer : Answer StatusReply) :
    Awaits begun creates (rounds ++ [⟨⟨engine, .act (.chunk offset content answer)⟩, none⟩])
      (engine.afterChunk answer).phase := by
  -- The status call is still to come exactly if the chunk call was refused.
  have all
      (unrefused :
        Moment.refused? ⟨engine, .act (.chunk offset content answer)⟩ = none) :
      ∀ round ∈ rounds ++ [⟨⟨engine, .act (.chunk offset content answer)⟩, none⟩],
        round.Settled := by
    rw [List.forall_mem_append, List.forall_mem_singleton]
    refine ⟨settled, ?_⟩
    simp only [Round.Settled, unrefused, Option.isSome_none]
  cases judged : engine.tuning.policy.classify answer with
  | success reply =>
      have calm := all (by simp only [Moment.refused?, Moment.chunk?, judged])
      simp only [afterChunk, judged, accept]
      split <;> exact ⟨opened, calm⟩
  | fatal status =>
      have calm := all (by simp only [Moment.refused?, Moment.chunk?, judged])
      simp only [afterChunk, judged]
      exact opened.complete calm
  | retryable reason =>
      simp only [afterChunk, judged, retreat]
      split
      case isTrue short =>
          have calm := all (by
            simp only [Moment.refused?, Moment.chunk?, judged, if_neg (Nat.not_lt_of_le short)])
          exact opened.complete calm
      case isFalse long =>
          refine ⟨opened, rounds, _, rfl, ?_, settled⟩
          simp only [Moment.refused?, Moment.chunk?, judged, if_pos (Nat.lt_of_not_le long),
            Option.isSome_some]

/-- The moments at which a call is made. -/
def callsIn (moments : List Moment) : List Moment :=
  moments.filter (·.call?.isSome)

theorem callsIn_concat
    {call : EndpointCall}
    (moments : List Moment)
    (called : moment.call? = some call) :
    callsIn (moments ++ [moment]) = callsIn moments ++ [moment] := by
  simp only [callsIn, List.filter_append, List.filter_singleton, called, Option.isSome_some]
  rfl

theorem callsIn_quiet
    (moments : List Moment)
    (quiet : moment.call? = none) :
    callsIn (moments ++ [moment]) = callsIn moments := by
  simp only [callsIn, List.filter_append, List.filter_singleton, quiet, Option.isSome_none]
  exact List.append_nil _

/-- What holds of an engine and of the calls that it has made. -/
structure Follows (begun : Engine) (moments : List Moment) (engine : Engine)
    (creates : List Moment) (rounds : List Round) : Prop where
  path : engine.path = begun.path
  size : engine.size = begun.size
  tuning : engine.tuning = begun.tuning
  calls : callsIn moments = creates ++ rounds.flatMap Round.calls
  protocol : Protocol begun creates rounds
  awaits : Awaits begun creates rounds engine.phase

namespace Follows

variable {creates : List Moment} {rounds : List Round}

theorem start (engine : Engine) : Follows engine [] engine.start [] [] where
  path := rfl
  size := rfl
  tuning := rfl
  calls := rfl
  protocol := .empty engine
  awaits :=
    ⟨rfl, Nat.le_max_right _ _, rfl, fun _ member => absurd member List.not_mem_nil⟩

theorem stop (follows : Follows begun moments engine creates rounds) :
    Follows begun (moments ++ [⟨engine, .stop⟩]) engine.requestStop creates rounds where
  path := follows.path
  size := follows.size
  tuning := follows.tuning
  calls := (callsIn_quiet moments rfl).trans follows.calls
  protocol := follows.protocol
  awaits := follows.awaits

/-- A step without a call. -/
theorem quiet
    (follows : Follows begun moments engine creates rounds)
    (step : Step engine act next)
    (uncalled : Moment.call? ⟨engine, .act act⟩ = none)
    (awaits : Awaits begun creates rounds next.phase) :
    Follows begun (moments ++ [⟨engine, .act act⟩]) next creates rounds where
  path := step.path_eq.trans follows.path
  size := step.size_eq.trans follows.size
  tuning := step.tuning_eq.trans follows.tuning
  calls := (callsIn_quiet moments uncalled).trans follows.calls
  protocol := follows.protocol
  awaits := awaits

/-- A step with a call, which is added to the calls before. -/
theorem call
    {creates' : List Moment}
    {rounds' : List Round}
    {call : EndpointCall}
    (follows : Follows begun moments engine creates rounds)
    (step : Step engine act next)
    (called : Moment.call? ⟨engine, .act act⟩ = some call)
    (added :
      creates' ++ rounds'.flatMap Round.calls =
        creates ++ rounds.flatMap Round.calls ++ [⟨engine, .act act⟩])
    (protocol : Protocol begun creates' rounds')
    (awaits : Awaits begun creates' rounds' next.phase) :
    Follows begun (moments ++ [⟨engine, .act act⟩]) next creates' rounds' where
  path := step.path_eq.trans follows.path
  size := step.size_eq.trans follows.size
  tuning := step.tuning_eq.trans follows.tuning
  calls := by
    rw [callsIn_concat moments called, follows.calls, added]
  protocol := protocol
  awaits := awaits

theorem create
    {attempt : Nat}
    (follows : Follows begun moments engine creates rounds)
    (phase : engine.phase = .creating attempt)
    (answer : Answer CreateReply) :
    Follows begun (moments ++ [⟨engine, .act (.create answer)⟩])
      (engine.afterCreate attempt answer) (creates ++ [⟨engine, .act (.create answer)⟩]) [] := by
  have awaits := follows.awaits
  simp only [Awaits, phase] at awaits
  obtain ⟨rfl, within, rfl, retried⟩ := awaits
  have called :
      Moment.call? ⟨engine, .act (.create answer)⟩ =
        some (.create begun.path begun.size) := by
    rw [← follows.path, ← follows.size]
    rfl
  apply follows.call (.create phase answer) called
  · simp only [List.flatMap_nil, List.append_nil]
  · exact follows.protocol.create retried within called
  · simp only [afterCreate]
    split
    case h_1 body accepted =>
        constructor
        · exact opened_concat creates ⟨body, accepted⟩
        · exact fun _ member => absurd member List.not_mem_nil
    case h_2 status rejected =>
        apply complete_concat
        rintro ⟨reason, retried⟩
        rw [rejected] at retried
        cases retried
    case h_3 reason failed =>
        split
        case isTrue below =>
            refine ⟨?_, ?_, rfl, ?_⟩
            · rw [List.length_append, List.length_singleton]
            · rw [follows.tuning] at below
              exact Nat.lt_of_lt_of_le below (Nat.le_max_left _ _)
            · rw [List.forall_mem_append, List.forall_mem_singleton]
              exact ⟨retried, reason, failed⟩
        case isFalse exhausted =>
            apply complete_concat
            intro _
            rw [follows.tuning] at exhausted
            unfold attempts at within ⊢
            omega

theorem chunk
    {content : String}
    (follows : Follows begun moments engine creates rounds)
    (phase : engine.phase = .sending content)
    (answer : Answer StatusReply) :
    Follows begun (moments ++ [⟨engine, .act (.chunk engine.offset content answer)⟩])
      (engine.afterChunk answer) creates
      (rounds ++ [⟨⟨engine, .act (.chunk engine.offset content answer)⟩, none⟩]) := by
  have awaits := follows.awaits
  simp only [Awaits, phase] at awaits
  obtain ⟨opened, settled⟩ := awaits
  have called :
      Moment.call? ⟨engine, .act (.chunk engine.offset content answer)⟩ =
        some (.chunk begun.path engine.offset content.utf8ByteSize) := by
    rw [← follows.path]
    rfl
  apply follows.call (.chunk phase answer) called
  · rw [List.flatMap_append, List.append_assoc]
    rfl
  · exact follows.protocol.chunk opened settled called
  · exact awaits_afterChunk opened settled engine engine.offset content answer

theorem status
    (follows : Follows begun moments engine creates rounds)
    (phase : engine.phase = .resyncing)
    (answer : Answer StatusReply) :
    ∃ rounds,
      Follows begun (moments ++ [⟨engine, .act (.status answer)⟩]) (engine.afterStatus answer)
        creates rounds := by
  have awaits := follows.awaits
  simp only [Awaits, phase] at awaits
  obtain ⟨opened, earlier, chunk, rfl, refused, settled⟩ := awaits
  have called :
      Moment.call? ⟨engine, .act (.status answer)⟩ = some (.status begun.path) := by
    rw [← follows.path]
    rfl
  have all :
      ∀ round ∈ earlier ++ [⟨chunk, some ⟨engine, .act (.status answer)⟩⟩], round.Settled := by
    rw [List.forall_mem_append, List.forall_mem_singleton]
    refine ⟨settled, ?_⟩
    simp only [Round.Settled, refused, Option.isSome_some]
  refine ⟨earlier ++ [⟨chunk, some ⟨engine, .act (.status answer)⟩⟩], ?_⟩
  apply follows.call (.status phase answer) called
  · simp only [List.flatMap_append, List.flatMap_singleton, Round.calls, List.append_assoc]
    rfl
  · exact follows.protocol.status refused called
  · simp only [afterStatus]
    split
    case h_1 => exact ⟨opened, all⟩
    case h_2 => exact opened.complete all
    case h_3 => exact ⟨opened, all⟩

/-- Whatever an engine meets with, the calls that it has made still follow the protocol. -/
theorem meets
    (follows : Follows begun moments engine creates rounds)
    (meets : Meets engine moment next) :
    ∃ creates rounds, Follows begun (moments ++ [moment]) next creates rounds := by
  have awaits := follows.awaits
  cases meets with
  | stop => exact ⟨_, _, follows.stop⟩
  | act step =>
      have taken := step
      cases step with
      | create phase answer => exact ⟨_, _, follows.create phase answer⟩
      | chunk phase answer => exact ⟨_, _, follows.chunk phase answer⟩
      | status phase answer => exact ⟨creates, follows.status phase answer⟩
      | retryCreate phase =>
          simp only [Awaits, phase] at awaits
          obtain ⟨rfl, below, opening⟩ := awaits
          exact ⟨_, _, follows.quiet taken rfl ⟨rfl, below, opening⟩⟩
      | check phase =>
          simp only [Awaits, phase] at awaits
          refine ⟨_, _, follows.quiet taken rfl ?_⟩
          simp only [Engine.check]
          split
          · split
            · exact awaits.1.complete awaits.2
            · exact awaits
          · exact awaits.1.complete awaits.2
      | read phase found =>
          simp only [Awaits, phase] at awaits
          refine ⟨_, _, follows.quiet taken rfl ?_⟩
          cases found with
          | ok => exact awaits
          | error => exact awaits.1.complete awaits.2
      | backOff phase =>
          simp only [Awaits, phase] at awaits
          exact ⟨_, _, follows.quiet taken rfl awaits⟩
      | report made =>
          refine ⟨_, _, follows.quiet taken rfl ?_⟩
          simp only [report?] at made
          simp only [afterReport]
          split at made
          case h_1 phase | h_2 phase | h_3 phase =>
              simp only [Awaits, phase] at awaits ⊢
              exact awaits
          case h_4 => cases made

end Follows

theorem follows_of_trace
    (run : Trace Meets engine.start moments final) :
    ∃ creates rounds, Follows engine moments final creates rounds := by
  induction run with
  | refl => exact ⟨[], [], .start engine⟩
  | snoc _ last earlier =>
      obtain ⟨creates, rounds, follows⟩ := earlier
      exact follows.meets last

/-! ## When no call follows -/

/-- The engine makes no more calls. -/
def Closed (engine : Engine) : Prop :=
  match engine.phase with
  | .checking => ¬ engine.offset < engine.size
  | .concluding _ | .ended _ => True
  | _ => False

theorem closed_of_meets
    (meets : Meets engine moment next)
    (closes : moment.Closes) :
    next.Closed := by
  cases meets with
  | stop => exact closes.elim
  | act step =>
      cases step with
      | create phase answer =>
          obtain ⟨status, rejected⟩ := closes
          simp only [afterCreate, rejected, fail, Closed]
      | read phase found =>
          obtain ⟨error, rfl⟩ := closes
          exact trivial
      | chunk phase answer =>
          simp only [Moment.Closes] at closes
          simp only [afterChunk]
          cases judged : engine.tuning.policy.classify answer with
          | success reply =>
              rw [judged] at closes
              have reached := Nat.not_lt_of_le (Nat.le_of_eq closes.symm)
              dsimp only
              rw [accept_of_not_lt reached]
              exact reached
          | fatal status => exact trivial
          | retryable reason =>
              rw [judged] at closes
              simp only [retreat, closes, ↓reduceIte, fail, Closed]
      | status phase answer =>
          simp only [Moment.Closes] at closes
          simp only [afterStatus]
          cases judged : engine.tuning.policy.classify answer with
          | success reply =>
              rw [judged] at closes
              exact Nat.not_lt_of_le (Nat.le_of_eq closes.symm)
          | fatal status => exact trivial
          | retryable reason =>
              rw [judged] at closes
              exact closes.elim
      | retryCreate | check | report | backOff => exact closes.elim

theorem Closed.meets
    (closed : engine.Closed)
    (meets : Meets engine moment next) :
    moment.call? = none ∧ next.Closed := by
  cases meets with
  | stop => exact ⟨rfl, closed⟩
  | act step =>
      cases step with
      | check phase =>
          simp only [Closed, phase] at closed
          simp only [Engine.check, closed, ↓reduceIte]
          exact ⟨rfl, trivial⟩
      | report made =>
          refine ⟨rfl, ?_⟩
          simp only [report?] at made
          simp only [afterReport]
          split at made
          case h_1 phase | h_2 phase => simp only [Closed, phase] at closed
          case h_3 => simp only [Closed]
          case h_4 => cases made
      | create phase | retryCreate phase | read phase | chunk phase | backOff phase
        | status phase =>
          simp only [Closed, phase] at closed

theorem Closed.quiet
    (closed : engine.Closed)
    (run : Trace Meets engine moments final) :
    ∀ moment ∈ moments, moment.call? = none := by
  have kept : final.Closed ∧ ∀ moment ∈ moments, moment.call? = none := by
    induction run with
    | refl => exact ⟨closed, fun _ member => absurd member List.not_mem_nil⟩
    | snoc _ last earlier =>
        obtain ⟨still, quiet⟩ := earlier
        obtain ⟨uncalled, closes⟩ := still.meets last
        refine ⟨closes, ?_⟩
        rw [List.forall_mem_append, List.forall_mem_singleton]
        exact ⟨quiet, uncalled⟩
  exact kept.2

theorem quiet_after_closing
    {before after : List Moment}
    {closing : Moment}
    (run : Trace Meets engine (before ++ closing :: after) final)
    (closes : closing.Closes) :
    ∀ moment ∈ after, moment.call? = none := by
  obtain ⟨middle, _, rest⟩ := run.split
  obtain ⟨following, meets, remaining⟩ := rest.uncons rfl
  exact (closed_of_meets meets closes).quiet remaining

end Engine

/-! ## What the endpoint sees of it -/

namespace Endpoint

theorem openUpload_calls
    (endpoint : Endpoint)
    (path : String)
    (size : Nat) :
    (endpoint.openUpload path size).1.calls = endpoint.calls := by
  unfold openUpload
  split
  · split <;> rfl
  · rfl

theorem create_calls
    (endpoint : Endpoint)
    (path : String)
    (size : Nat) :
    (endpoint.create path size).1.calls = endpoint.calls ++ [.create path size] := by
  unfold create
  dsimp only
  split
  · rfl
  · exact openUpload_calls _ path size

theorem store_calls
    (endpoint : Endpoint)
    (path : String)
    (upload : PartialUpload) :
    (endpoint.store path upload).calls = endpoint.calls := by
  unfold store
  split <;> rfl

theorem append_calls
    (endpoint : Endpoint)
    (path content : String)
    (offset : Nat) :
    (endpoint.append path content offset).1.calls = endpoint.calls := by
  unfold append
  split
  · rfl
  · split
    · rfl
    · split
      · rfl
      · exact store_calls endpoint path _

theorem chunk_calls
    (endpoint : Endpoint)
    (path content : String)
    (offset : Nat) :
    (endpoint.chunk path content offset).1.calls =
      endpoint.calls ++ [.chunk path offset content.utf8ByteSize] := by
  unfold chunk receiveChunk
  dsimp only
  split
  · rfl
  · exact append_calls _ path content offset

theorem status_calls
    (endpoint : Endpoint)
    (path : String) :
    (endpoint.status path).1.calls = endpoint.calls ++ [.status path] := by
  unfold status
  dsimp only
  split
  · rfl
  · split <;> rfl

end Endpoint

namespace Transfer

open ResumableUpload.Engine

/-- An endpoint that serves an engine sees the calls of the engine and no others. -/
theorem calls_of_serve?
    {engine : Engine}
    {endpoint after : Endpoint}
    {act : Act}
    (served : serve? engine endpoint = some (act, after)) :
    after.calls = endpoint.calls ++ (Moment.call? ⟨engine, .act act⟩).toList := by
  cases answered_of_serve? served with
  | create => exact endpoint.create_calls engine.path engine.size
  | chunk content => exact endpoint.chunk_calls engine.path content engine.offset
  | status => exact endpoint.status_calls engine.path
  | read | report | check | wait => exact (List.append_nil _).symm

/--
The calls that an engine makes, whatever it is answered and reads and whenever it is told to stop.
First there are create calls for its path and size, at most as many as it may make, each but the first
after one that may be tried again; and once it has ended there was one, and another wherever one that
may be tried again left any.  Only after one that was accepted there are chunk calls, each with a
status call right after it exactly if it was refused.  No call follows on a moment that closes the
upload, and an endpoint that serves the engine sees these calls and no others.
-/
theorem calls_follow_protocol
    {engine final : Engine}
    {moments : List Moment}
    (run : Trace Meets engine.start moments final) :
    (∃ creates rounds,
      callsIn moments = creates ++ rounds.flatMap Round.calls ∧
        Protocol engine creates rounds ∧
        (final.hasEnded = true → Complete engine creates rounds)) ∧
    (∀ {before after : List Moment} {closing : Moment},
      moments = before ++ closing :: after → closing.Closes →
        ∀ moment ∈ after, moment.call? = none) ∧
    ∀ moment ∈ moments, ∀ {endpoint next : Endpoint} {act : Act},
      moment.event = .act act → serve? moment.engine endpoint = some (act, next) →
        next.calls = endpoint.calls ++ moment.call?.toList := by
  refine ⟨?_, ?_, ?_⟩
  · obtain ⟨creates, rounds, follows⟩ := follows_of_trace run
    refine ⟨creates, rounds, follows.calls, follows.protocol, ?_⟩
    intro ended
    have awaits := follows.awaits
    simp only [hasEnded, outcome?] at ended
    split at ended
    case h_1 phase =>
        rw [phase] at awaits
        exact awaits
    case h_2 => cases ended
  · rintro before after closing rfl closes
    exact quiet_after_closing run closes
  · rintro ⟨current, _⟩ _ endpoint next act rfl served
    exact calls_of_serve? served

/-- The first create call and the only chunk call fail, and the file cannot be read any more then. -/
theorem unreadable_file_is_sent_no_more :
    let file : FileHandle := ⟨0, .ofBytes [7, 8, 9]⟩
    let engine := new (Config.tuning { chunkLength := 2 }) "a" file 0
    let earlier : List Event :=
      [.act (.create (.error (.io "lost"))), .act .wait,
        .act (.create (.ok (Response.success ⟨"a", 3⟩))), .act .check, .act (.read (.ok [7, 8])),
        .act (.chunk 0 (Base64.encode [7, 8]) (.error (.io "lost"))),
        .act (.report ⟨"a", 0, true, "I/O error: lost"⟩), .act .wait,
        .act (.status (.ok (Response.success ⟨"a", 2, 3⟩))), .act .check]
    let unread : Event := .act (.read (.error (.io "gone")))
    ∃ before closing after final creates rounds,
      Trace Meets engine.start (before ++ closing :: after) final ∧
        before.map Moment.event = earlier ∧ closing.event = unread ∧ closing.Closes ∧
        final.hasEnded = true ∧
        callsIn (before ++ closing :: after) = creates ++ rounds.flatMap Round.calls ∧
        Protocol engine creates rounds ∧ Complete engine creates rounds ∧
        ∀ moment ∈ after, moment.call? = none := by
  intro file engine earlier unread
  let last : Report := ⟨"a", 2, false, (UploadError.unreadable (.io "gone")).message⟩
  have reached :
      ((earlier ++ unread :: [.act (.report last)]).foldlM (goes? [7, 8, 9]) engine.start).map
        (·.hasEnded) = some true := by
    decide
  obtain ⟨final, gone, ended⟩ := Option.map_eq_some_iff.mp reached
  obtain ⟨moments, seen, run⟩ := meets_of_goes (Trace.of_foldlM (Goes _) goes_of_goes? gone)
  obtain ⟨before, rest, rfl, first, second⟩ := List.map_eq_append_iff.mp seen
  obtain ⟨closing, after, rfl, failed, _⟩ := List.map_eq_cons_iff.mp second
  have closes : closing.Closes := by
    simp only [Moment.Closes, failed]
    exact ⟨_, rfl⟩
  obtain ⟨⟨creates, rounds, calls, protocol, complete⟩, quiet, _⟩ := calls_follow_protocol run
  exact ⟨before, closing, after, final, creates, rounds, run, first, failed, closes, ended, calls,
    protocol, complete ended, quiet rfl closes⟩

end Transfer

end ResumableUpload
