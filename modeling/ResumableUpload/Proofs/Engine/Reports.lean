import ResumableUpload.Proofs.Engine.Chunks
import ResumableUpload.Proofs.Queue.Entries

/-!
# What an engine reports

An engine makes one report for every chunk call after which it has something left to send and goes
on, and one last report when it ends.  `Moment.due?` says which report is due after what an engine
has met with; exactly these are made, in their order, whatever the endpoint answers, whatever is read
and whenever the engine is told to stop.

Only the last report pauses an entry, and it confirms all of the file, or carries no message, exactly
if the engine has finished; so a queue drops the entry on that report and on no other.
-/

namespace ResumableUpload

/-! ## Messages -/

theorem append_ne_empty
    {first : String}
    (nonempty : first ≠ "")
    (rest : String) :
    first ++ rest ≠ "" := by
  intro empty
  exact nonempty (String.append_eq_empty_iff.mp empty).1

theorem UploadError.message_ne_empty (error : UploadError) : error.message ≠ "" := by
  cases error with
  | stalled =>
      change "poor network condition, retry later" ≠ ""
      decide
  | stopped =>
      change "uploading is stopped" ≠ ""
      decide
  | invalid | notFound | transport | unreadable | executor => exact append_ne_empty (by decide) _
  | createFailed | rejected =>
      exact append_ne_empty (append_ne_empty (append_ne_empty (by decide) _) _) _

/-- Only an engine that has sent all of its file ends without a message. -/
theorem Outcome.message_ne_empty
    {outcome : Outcome}
    (unfinished : outcome ≠ .finished) :
    outcome.message ≠ "" := by
  cases outcome with
  | finished => exact absurd rfl unfinished
  | stopped => exact UploadError.stopped.message_ne_empty
  | failed error => exact error.message_ne_empty

theorem Outcome.message_eq_empty_iff
    (outcome : Outcome) :
    outcome.message = "" ↔ outcome = .finished := by
  constructor
  · intro empty
    by_contra unfinished
    exact outcome.message_ne_empty unfinished empty
  · rintro rfl
    rfl

/-- An answer that may pass is never without a reason. -/
theorem Policy.reason_ne_empty
    {α : Type}
    {policy : Policy}
    {answer : Answer α}
    {reason : String}
    (judged : policy.classify answer = .retryable reason) :
    reason ≠ "" := by
  unfold classify at judged
  split at judged
  case h_1 error =>
      cases judged
      cases error <;> exact append_ne_empty (by decide) _
  case h_2 status body =>
      have unexpected : Policy.unexpected status ≠ "" := append_ne_empty (by decide) _
      cases body with
      | some given =>
          dsimp only at judged
          split at judged
          · cases judged
          · split at judged
            · cases judged
            · cases judged
              exact unexpected
      | none =>
          dsimp only at judged
          split at judged
          · cases judged
          · split at judged
            · cases judged
              decide
            · cases judged
              exact unexpected

namespace Engine

variable {engine next final : Engine} {act : Act}

/-! ## Moments of a run -/

/-- The report that is made in an event. -/
def Event.report? : Event → Option Report
  | .act act => act.report?
  | .stop => none

/-- Something that happens to an engine, with the engine that it happens to. -/
structure Moment where
  engine : Engine
  event : Event

/-- What can happen to an engine, be the answers and the bytes that it is given true or not. -/
inductive Meets : Engine → Moment → Engine → Prop where
  | act {engine next : Engine} {act : Act}
      (step : Step engine act next) :
      Meets engine ⟨engine, .act act⟩ next
  | stop {engine : Engine} :
      Meets engine ⟨engine, .stop⟩ engine.requestStop

/-- A run in which what is read is true is one of those in which it need not be. -/
theorem meets_of_goes
    {bytes : Bytes}
    {events : List Event}
    (run : Trace (Goes bytes) engine events final) :
    ∃ moments, moments.map Moment.event = events ∧ Trace Meets engine moments final := by
  apply run.lift
  intro engine event next goes
  refine ⟨⟨engine, event⟩, rfl, ?_⟩
  cases goes with
  | act step => exact .act step
  | stop => exact .stop

namespace Moment

/-- The report that is made. -/
def report? (moment : Moment) : Option Report :=
  moment.event.report?

/-- What the answer to a chunk call means to the engine. -/
def chunk? (moment : Moment) : Option (Verdict StatusReply) :=
  match moment.event with
  | .act (.chunk _ _ answer) => some (moment.engine.tuning.policy.classify answer)
  | _ => none

/-- The offset that a chunk call brought, if it was accepted and something is left to send. -/
def accepted? (moment : Moment) : Option Nat :=
  match moment.chunk? with
  | some (.success reply) =>
    let adopted := min reply.uploaded moment.engine.size
    if adopted < moment.engine.size then some adopted else none
  | _ => none

/-- Why a chunk call failed, if that may pass and the chunk can still be shortened. -/
def refused? (moment : Moment) : Option String :=
  match moment.chunk? with
  | some (.retryable reason) =>
    if moment.engine.tuning.pace.floor < moment.engine.chunkLength then some reason else none
  | _ => none

/-- The report that is due after a chunk call. -/
def due? (moment : Moment) : Option Report :=
  match moment.accepted?, moment.refused? with
  | some offset, _ => some ⟨moment.engine.path, offset, true, ""⟩
  | none, some reason => some ⟨moment.engine.path, moment.engine.offset, true, reason⟩
  | none, none => none

/-- No report is due but after a chunk call. -/
theorem due?_of_chunkless
    {moment : Moment}
    (chunkless : moment.chunk? = none) :
    moment.due? = none := by
  simp only [due?, accepted?, refused?, chunkless]

/-- A chunk call is not both accepted and refused. -/
theorem refused?_of_accepted?
    {moment : Moment}
    {offset : Nat}
    (accepted : moment.accepted? = some offset) :
    moment.refused? = none := by
  unfold accepted? at accepted
  unfold refused?
  split at accepted
  case h_1 judged => rw [judged]
  case h_2 => cases accepted

theorem accepted?_lt
    {moment : Moment}
    {offset : Nat}
    (accepted : moment.accepted? = some offset) :
    offset < moment.engine.size := by
  unfold accepted? at accepted
  split at accepted
  case h_1 =>
      dsimp only at accepted
      split at accepted
      case isTrue left =>
          cases accepted
          exact left
      case isFalse => cases accepted
  case h_2 => cases accepted

theorem refused?_ne_empty
    {moment : Moment}
    {reason : String}
    (refused : moment.refused? = some reason) :
    reason ≠ "" := by
  unfold refused? at refused
  split at refused
  case h_1 judged =>
      split at refused
      case isTrue =>
          cases refused
          unfold chunk? at judged
          split at judged
          · exact Policy.reason_ne_empty (Option.some.inj judged)
          · cases judged
      case isFalse => cases refused
  case h_2 => cases refused

/-- What is due after a chunk call lets the entry go on, and tells whether the call was accepted. -/
theorem due?_cases
    {moment : Moment}
    {report : Report}
    (below : moment.chunk?.isSome = true → moment.engine.offset < moment.engine.size)
    (due : moment.due? = some report) :
    report.path = moment.engine.path ∧ report.runnable = true ∧
      report.uploaded < moment.engine.size ∧
      (report.message = "" ↔ moment.accepted?.isSome = true) ∧
      (report.message ≠ "" ↔ moment.refused?.isSome = true) := by
  unfold due? at due
  split at due
  case h_1 offset _ accepted =>
      cases due
      have unrefused := refused?_of_accepted? accepted
      refine ⟨rfl, rfl, accepted?_lt accepted, ?_, ?_⟩
      · simp only [accepted, Option.isSome_some]
      · simp only [unrefused, Option.isSome_none, ne_eq, not_true_eq_false, Bool.false_eq_true]
  case h_2 reason unaccepted refused =>
      cases due
      have reasoned := refused?_ne_empty refused
      have called : moment.chunk?.isSome = true := by
        unfold refused? at refused
        split at refused
        case h_1 judged => rw [judged, Option.isSome_some]
        case h_2 => cases refused
      refine ⟨rfl, rfl, below called, ?_, ?_⟩
      · simp only [reasoned, unaccepted, Option.isSome_none, Bool.false_eq_true]
      · simp only [reasoned, refused, Option.isSome_some, ne_eq, not_false_eq_true]
  case h_3 => cases due

end Moment

/-! ## What is due and what is made -/

/-- The report that an engine has yet to make of the chunk call before. -/
def owed? (engine : Engine) : Option Report :=
  match engine.phase with
  | .accepted | .refused _ => engine.report?
  | _ => none

/-- Only a chunk call makes an engine owe a report. -/
theorem Step.owed?_eq_none
    (step : Step engine act next)
    (chunkless :
      ∀ {offset : Nat} {content : String} {answer : Answer StatusReply},
        act ≠ .chunk offset content answer) :
    next.owed? = none := by
  have leads := step.leads
  unfold owed?
  split
  case h_1 phase =>
      rw [phase] at leads
      cases leads with
      | accepts => exact absurd rfl chunkless
  case h_2 phase =>
      rw [phase] at leads
      cases leads with
      | refuses => exact absurd rfl chunkless
  case h_3 => rfl

/-- After a chunk call an engine owes the report that is due. -/
theorem owed?_afterChunk
    (engine : Engine)
    (offset : Nat)
    (content : String)
    (answer : Answer StatusReply) :
    (engine.afterChunk answer).owed? =
      Moment.due? ⟨engine, .act (.chunk offset content answer)⟩ := by
  simp only [afterChunk, Moment.due?, Moment.accepted?, Moment.refused?, Moment.chunk?]
  cases engine.tuning.policy.classify answer with
  | success reply =>
      by_cases left : (engine.adopt reply.uploaded).offset < engine.size
      · have adopted : min reply.uploaded engine.size < engine.size := left
        simp only [accept_of_lt left, if_pos adopted]
        rfl
      · have adopted : ¬ min reply.uploaded engine.size < engine.size := left
        simp only [accept_of_not_lt left, if_neg adopted]
        rfl
  | fatal => rfl
  | retryable reason =>
      by_cases short : engine.chunkLength ≤ engine.tuning.pace.floor
      · have stalls : ¬ engine.tuning.pace.floor < engine.chunkLength := Nat.not_lt_of_le short
        simp only [retreat, if_pos short, if_neg stalls]
        rfl
      · have shortens : engine.tuning.pace.floor < engine.chunkLength := Nat.lt_of_not_le short
        simp only [retreat, if_neg short, if_pos shortens]
        rfl

/-- An engine makes the report that it owes before it does anything else. -/
theorem Step.owes_nothing
    (step : Step engine act next)
    (silent : act.report? = none) :
    engine.owed? = none := by
  cases step with
  | report => cases silent
  | create phase | retryCreate phase | check phase | read phase | chunk phase | backOff phase
    | status phase =>
      simp only [owed?, phase]

/-- As long as an engine goes on, what was owed and is due is what is made and owed then. -/
theorem Step.owed?_eq
    (step : Step engine act next)
    (going : next.hasEnded = false) :
    engine.owed?.toList ++ (Moment.due? ⟨engine, .act act⟩).toList =
      act.report?.toList ++ next.owed?.toList := by
  cases act with
  | chunk offset content answer =>
      rw [step.owes_nothing rfl]
      cases step with
      | chunk =>
          rw [owed?_afterChunk engine engine.offset]
          rfl
  | report report =>
      rw [step.owed?_eq_none nofun]
      obtain ⟨made, rfl⟩ := step.report_made
      have owed : engine.owed? = engine.report? := by
        unfold report? at made
        unfold afterReport at going
        split at made
        case h_1 phase => simp only [owed?, phase]
        case h_2 phase => simp only [owed?, phase]
        case h_3 phase =>
            simp only [phase] at going
            cases going
        case h_4 => cases made
      rw [owed, made]
      rfl
  | create | read | status | check | wait =>
      rw [step.owes_nothing rfl, step.owed?_eq_none nofun]
      rfl

/-- An engine ends with the report of its outcome, and owes no other then. -/
theorem Step.last_report
    {outcome : Outcome}
    (step : Step engine act next)
    (ended : next.outcome? = some outcome) :
    engine.owed? = none ∧
      act = .report ⟨engine.path, next.offset, false, outcome.message⟩ := by
  have finally_ : next.hasEnded = true := by
    unfold hasEnded
    rw [ended, Option.isSome_some]
  obtain ⟨report, rfl, _, last⟩ := step.ends finally_
  obtain ⟨made, rfl⟩ := step.report_made
  unfold report? at made
  split at made
  case h_1 => cases made; cases last
  case h_2 => cases made; cases last
  case h_3 found phase =>
      cases made
      simp only [afterReport, phase, outcome?, Option.some.injEq] at ended
      subst ended
      simp only [owed?, afterReport, phase, and_self]
  case h_4 => cases made

/-- The reports that are made in a run. -/
def madeIn (moments : List Moment) : List Report :=
  moments.filterMap Moment.report?

/-- The reports that are due after the chunk calls of a run. -/
def dueIn (moments : List Moment) : List Report :=
  moments.filterMap Moment.due?

theorem madeIn_concat
    (moments : List Moment)
    (moment : Moment) :
    madeIn (moments ++ [moment]) = madeIn moments ++ moment.report?.toList :=
  filterMap_concat Moment.report? moments moment

theorem dueIn_concat
    (moments : List Moment)
    (moment : Moment) :
    dueIn (moments ++ [moment]) = dueIn moments ++ moment.due?.toList :=
  filterMap_concat Moment.due? moments moment

/-- Telling an engine to stop brings no report. -/
theorem madeIn_stop
    (moments : List Moment)
    (engine : Engine) :
    madeIn (moments ++ [⟨engine, .stop⟩]) = madeIn moments := by
  rw [madeIn_concat]
  exact List.append_nil _

theorem dueIn_stop
    (moments : List Moment)
    (engine : Engine) :
    dueIn (moments ++ [⟨engine, .stop⟩]) = dueIn moments := by
  rw [dueIn_concat]
  exact List.append_nil _

/-- What holds of an engine that started with something left to send, and of what it met with. -/
structure Tells (begun : Engine) (moments : List Moment) (engine : Engine) : Prop where
  path : engine.path = begun.path
  size : engine.size = begun.size
  ordered : engine.Ordered
  /-- Nothing was sent by an engine that had nothing left to send. -/
  before :
    ∀ moment ∈ moments, moment.engine.path = begun.path ∧ moment.engine.size = begun.size ∧
      (moment.chunk?.isSome = true → moment.engine.offset < begun.size)
  going : engine.hasEnded = false → madeIn moments ++ engine.owed?.toList = dueIn moments
  ended :
    ∀ outcome, engine.outcome? = some outcome →
      madeIn moments = dueIn moments ++ [⟨begun.path, engine.offset, false, outcome.message⟩]

namespace Tells

variable {begun : Engine} {moments : List Moment}

theorem start (left : engine.offset < engine.size) :
    Tells engine [] engine.start where
  path := rfl
  size := rfl
  ordered := left
  before _ member := absurd member List.not_mem_nil
  going _ := rfl
  ended _ ended := by cases ended

/-- A moment is only added behind the ones before. -/
theorem before_concat
    {moment : Moment}
    (tells : Tells begun moments engine)
    (same : moment.engine = engine)
    (left : moment.chunk?.isSome = true → engine.offset < engine.size) :
    ∀ earlier ∈ moments ++ [moment], earlier.engine.path = begun.path ∧
      earlier.engine.size = begun.size ∧
      (earlier.chunk?.isSome = true → earlier.engine.offset < begun.size) := by
  rw [List.forall_mem_append, List.forall_mem_singleton]
  refine ⟨tells.before, ?_⟩
  rw [same, ← tells.path, ← tells.size]
  exact ⟨rfl, rfl, left⟩

theorem step
    (tells : Tells begun moments engine)
    (step : Step engine act next) :
    Tells begun (moments ++ [⟨engine, .act act⟩]) next where
  path := step.path_eq.trans tells.path
  size := step.size_eq.trans tells.size
  ordered := tells.ordered.step step
  before := by
    refine tells.before_concat rfl ?_
    intro called
    cases step with
    | chunk phase => simpa only [Ordered, phase] using tells.ordered
    | create | retryCreate | check | read | report | backOff | status => cases called
  going going := by
    rw [madeIn_concat, dueIn_concat, ← tells.going step.not_ended, List.append_assoc,
      List.append_assoc, step.owed?_eq going]
    rfl
  ended outcome ended := by
    obtain ⟨nothing, rfl⟩ := step.last_report ended
    have past := tells.going step.not_ended
    rw [nothing, Option.toList_none, List.append_nil] at past
    rw [madeIn_concat, dueIn_concat, past, tells.path, Moment.due?_of_chunkless rfl,
      Option.toList_none, List.append_nil]
    rfl

theorem stop (tells : Tells begun moments engine) :
    Tells begun (moments ++ [⟨engine, .stop⟩]) engine.requestStop where
  path := tells.path
  size := tells.size
  ordered := tells.ordered.requestStop
  before := tells.before_concat rfl nofun
  going going := by
    rw [madeIn_stop, dueIn_stop]
    exact tells.going going
  ended outcome ended := by
    rw [madeIn_stop, dueIn_stop]
    exact tells.ended outcome ended

end Tells

theorem tells_of_trace
    {moments : List Moment}
    (left : engine.offset < engine.size)
    (run : Trace Meets engine.start moments final) :
    Tells engine moments final := by
  induction run with
  | refl => exact .start left
  | snoc _ last tells =>
      cases last with
      | act step => exact tells.step step
      | stop => exact tells.stop

theorem Ordered.offset_le
    (ordered : engine.Ordered) :
    engine.offset ≤ engine.size := by
  unfold Ordered at ordered
  split at ordered
  case h_1 => exact ordered
  case h_2 | h_3 => exact Nat.le_of_eq ordered
  case h_4 | h_5 => exact Nat.le_of_lt ordered.1
  case h_6 => exact Nat.le_of_lt ordered

/-- An engine that had something left to send has finished if it stands at the end of its file. -/
theorem Ordered.offset_eq_iff
    {outcome : Outcome}
    (ordered : engine.Ordered)
    (ended : engine.outcome? = some outcome) :
    engine.offset = engine.size ↔ outcome = .finished := by
  unfold outcome? at ended
  split at ended
  case h_1 phase =>
      cases ended
      unfold Ordered at ordered
      cases outcome with
      | finished =>
          simp only [phase] at ordered
          exact ⟨fun _ => rfl, fun _ => ordered⟩
      | stopped =>
          simp only [phase] at ordered
          exact ⟨fun whole => absurd whole (Nat.ne_of_lt ordered.1), nofun⟩
      | failed =>
          simp only [phase] at ordered
          exact ⟨fun whole => absurd whole (Nat.ne_of_lt ordered), nofun⟩
  case h_2 => cases ended

end Engine

/-- A queue drops the entry of a path on a report that confirms all of it, and on no other. -/
theorem Queue.Tidy.drops_iff
    {queue : Queue}
    {entry : Entry}
    {report : Report}
    (tidy : queue.Tidy)
    (found : queue.find? report.path = some entry) :
    (queue.reconcile report).find? report.path = none ↔ entry.size ≤ report.uploaded := by
  rw [tidy.find?_reconcile, if_pos rfl, found, Option.bind_some]
  split
  case isTrue whole => exact ⟨fun _ => whole, fun _ => rfl⟩
  case isFalse lacking => exact ⟨nofun, fun whole => absurd whole lacking⟩

namespace Engine

/--
In every run of an engine that starts with something left to send, the reports are those that are due
after its chunk calls, in their order, and a last one once it has ended: one without a message for
every chunk that was accepted and leaves something to send, and one with a message for every chunk
that failed in a way that may pass and can be shortened.  Only the last report pauses the entry; it
confirms all of the file, and carries no message, exactly if the engine has finished.  So it is the
report on which a queue drops the entry if the engine has finished, and there is no such report
otherwise.
-/
theorem reports_follow_answers
    {engine final : Engine}
    {moments : List Moment}
    (left : engine.offset < engine.size)
    (run : Trace Meets engine.start moments final) :
    (∀ moment ∈ moments, ∀ report, moment.due? = some report →
      report.runnable = true ∧ report.uploaded < engine.size ∧
        (report.message = "" ↔ moment.accepted?.isSome = true) ∧
        (report.message ≠ "" ↔ moment.refused?.isSome = true)) ∧
    (final.outcome? = none →
      madeIn moments <+: dueIn moments ∧ (dueIn moments).length ≤ (madeIn moments).length + 1) ∧
    ∀ outcome, final.outcome? = some outcome →
      ∃ last,
        madeIn moments = dueIn moments ++ [last] ∧ last.runnable = false ∧
          (last.uploaded = engine.size ↔ outcome = .finished) ∧
          (last.message = "" ↔ outcome = .finished) ∧
          ∀ {queue : Queue} {entry : Entry},
            queue.Tidy → queue.find? engine.path = some entry → entry.size = engine.size →
              ∀ report ∈ madeIn moments,
                (queue.reconcile report).find? engine.path = none ↔
                  report = last ∧ outcome = .finished := by
  have tells := tells_of_trace left run
  have due : ∀ moment ∈ moments, ∀ report, moment.due? = some report →
      report.path = engine.path ∧ report.runnable = true ∧ report.uploaded < engine.size ∧
        (report.message = "" ↔ moment.accepted?.isSome = true) ∧
        (report.message ≠ "" ↔ moment.refused?.isSome = true) := by
    intro moment member report due
    obtain ⟨path, size, below⟩ := tells.before moment member
    have told := Moment.due?_cases (by rwa [size]) due
    rwa [path, size] at told
  refine ⟨fun moment member report found => (due moment member report found).2, ?_, ?_⟩
  · intro going
    have made := tells.going (by rw [hasEnded, going, Option.isSome_none])
    have few : final.owed?.toList.length ≤ 1 := by
      cases final.owed? <;> simp
    refine ⟨⟨_, made⟩, ?_⟩
    rw [← made, List.length_append]
    omega
  · intro outcome ended
    have made := tells.ended outcome ended
    have whole : final.offset = engine.size ↔ outcome = .finished := by
      rw [← tells.size]
      exact tells.ordered.offset_eq_iff ended
    refine ⟨_, made, rfl, whole, outcome.message_eq_empty_iff, ?_⟩
    intro queue entry tidy found size report member
    rw [made] at member
    rcases List.mem_append.mp member with earlier | last
    · obtain ⟨moment, before, owed⟩ := List.mem_filterMap.mp earlier
      obtain ⟨path, runnable, below, _⟩ := due moment before report owed
      rw [← path] at found ⊢
      rw [tidy.drops_iff found, size]
      constructor
      · intro reached
        omega
      · rintro ⟨same, _⟩
        rw [same] at runnable
        cases runnable
    · obtain rfl := List.mem_singleton.mp last
      have within := tells.ordered.offset_le
      rw [tells.size] at within
      refine (tidy.drops_iff found).trans ?_
      rw [size, ← whole]
      constructor
      · intro reached
        exact ⟨rfl, Nat.le_antisymm within reached⟩
      · rintro ⟨_, same⟩
        exact Nat.le_of_eq same.symm

/-- The first chunk call of a file fails, and the second one brings all of it. -/
theorem failed_chunk_is_reported_once :
    let file : FileHandle := ⟨0, .ofBytes [7, 8, 9]⟩
    let engine := new (Config.tuning { chunkLength := 2 }) "a" file 0
    let queue : Queue := { entries := [.ofFile file "a"] }
    let failed : Report := ⟨"a", 0, true, "I/O error: lost"⟩
    let last : Report := ⟨"a", 3, false, ""⟩
    ∃ moments final,
      engine.offset < engine.size ∧ Trace Meets engine.start moments final ∧
        final.outcome? = some .finished ∧ madeIn moments = [failed, last] ∧
        dueIn moments = [failed] ∧ queue.Tidy ∧ (queue.reconcile last).find? "a" = none := by
  intro file engine queue failed last
  let events : List Event :=
    [.act (.create (.ok (Response.success ⟨"a", 3⟩))), .act .check, .act (.read (.ok [7, 8])),
      .act (.chunk 0 (Base64.encode [7, 8]) (.error (.io "lost"))), .act (.report failed),
      .act .wait, .act (.status (.ok (Response.success ⟨"a", 2, 3⟩))), .act .check,
      .act (.read (.ok [9])),
      .act (.chunk 2 (Base64.encode [9]) (.ok (Response.success ⟨"a", 3, 3⟩))), .act .check,
      .act (.report last)]
  have finished :
      (events.foldlM (goes? [7, 8, 9]) engine.start).map (·.outcome?) = some (some .finished) := by
    decide
  obtain ⟨final, reached, outcome⟩ := Option.map_eq_some_iff.mp finished
  obtain ⟨moments, seen, run⟩ := meets_of_goes (Trace.of_foldlM (Goes _) goes_of_goes? reached)
  have left : engine.offset < engine.size := by decide
  have made : madeIn moments = [failed, last] := by
    have told : madeIn moments = (moments.map Moment.event).filterMap Event.report? :=
      List.filterMap_map.symm
    rw [told, seen]
    rfl
  have tidy : queue.Tidy := by
    refine ⟨List.nodup_singleton _, ?_⟩
    intro entry file member held
    obtain rfl := List.mem_singleton.mp member
    cases held
    rfl
  obtain ⟨_, _, ends⟩ := reports_follow_answers left run
  obtain ⟨latest, due, _, _, _, drops⟩ := ends .finished outcome
  have parted : [failed] ++ [last] = dueIn moments ++ [latest] := made.symm.trans due
  obtain ⟨owed, same⟩ := List.append_inj' parted rfl
  obtain rfl := List.singleton_inj.mp same
  refine ⟨moments, final, left, run, outcome, made, owed.symm, tidy, ?_⟩
  exact (drops tidy rfl rfl last (by simp [made])).mpr ⟨rfl, rfl⟩

end Engine

end ResumableUpload
