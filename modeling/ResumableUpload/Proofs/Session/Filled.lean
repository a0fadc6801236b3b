import ResumableUpload.Proofs.Pace
import ResumableUpload.Proofs.Session.Drain

/-!
# A queue that was filled

`Queue.Filled` says which contents the queue is about to bring to which paths: nothing has been
transferred yet, and what is runnable has a file that holds the right bytes.  What is taken up from a
listing adds nothing to that, as it waits for its file; a file that is added does.  A session whose
queue was filled is `Loaded`.
-/

namespace ResumableUpload

/-- The runnable entries are those of the paths of `target`, with files that hold what it tells. -/
structure Queue.Filled (target : String → Option Bytes) (queue : Queue) : Prop where
  unreported : queue.reportsSeen = 0
  tidy : queue.Tidy
  ready : queue.Ready
  right : ∀ {path : String} {entry : Entry},
    queue.find? path = some entry → entry.runnable = true →
      ∃ file bytes, entry.file = some file ∧ target path = some bytes ∧ file.Holds bytes
  queued : ∀ {path : String} {bytes : Bytes}, target path = some bytes →
    ∃ entry, queue.find? path = some entry ∧ entry.runnable = true

/-- What is taken up from a listing waits for its files. -/
theorem Queue.filled_restore
    (limit : Nat)
    (infos : List PartialInfo) :
    Filled (fun _ => none) (Queue.restore limit {} infos).1 where
  unreported := reportsSeen_restore {} limit infos
  tidy := Tidy.restore ⟨List.nodup_nil, nofun⟩
  ready := Ready.restore nofun
  right found runnable := by
    obtain ⟨_, paused⟩ := find?_restore_of_none rfl found
    rw [paused] at runnable
    cases runnable
  queued := nofun

/-- A file that is added takes the place of what was wanted for its path. -/
theorem Queue.Filled.add
    {target : String → Option Bytes}
    {queue next : Queue}
    {limit : Nat}
    {file : FileHandle}
    {path : String}
    {bytes : Bytes}
    (filled : Filled target queue)
    (holds : file.Holds bytes)
    (added : queue.add limit file path = .ok next) :
    Filled (fun other => (if path = other then some bytes else none).or (target other)) next := by
  obtain ⟨entry, found, held, _, runnable⟩ := find?_add added
  refine ⟨(reportsSeen_add added).trans filled.unreported, filled.tidy.add added,
    filled.ready.add filled.tidy added, ?_, ?_⟩
  · intro other queued here allowed
    by_cases same : path = other
    · subst same
      cases found.symm.trans here
      exact ⟨file, bytes, held, by rw [if_pos rfl, Option.some_or], holds⟩
    · rw [find?_add_of_ne added (Ne.symm same)] at here
      rw [if_neg same, Option.none_or]
      exact filled.right here allowed
  · intro other content wanted
    by_cases same : path = other
    · exact ⟨entry, same ▸ found, runnable⟩
    · rw [if_neg same, Option.none_or] at wanted
      rw [find?_add_of_ne added (Ne.symm same)]
      exact filled.queued wanted

/-- A filled queue may be drained against an endpoint that has begun with what it brings. -/
theorem Session.loaded_of_filled
    {config : Config}
    {endpoint : Endpoint}
    {target : String → Option Bytes}
    {queue : Queue}
    (listScript : List (Answer ListReply))
    (checked : config.check = .ok ())
    (fails : endpoint.OnlyFails)
    (filled : queue.Filled target)
    (begun :
      ∀ {path : String} {bytes : Bytes}, target path = some bytes →
        endpoint.Partway path bytes) :
    Loaded target
      { Session.new config .inline endpoint with queue := queue, listScript := listScript } where
  online := rfl
  fails := fails
  inline := rfl
  free := rfl
  unmarked := rfl
  counted := filled.unreported.symm
  pace := Config.keeps_one checked
  tidy := filled.tidy
  ready := filled.ready
  waiting found runnable := by
    obtain ⟨file, bytes, held, wanted, holds⟩ := filled.right found runnable
    exact ⟨file, bytes, held, wanted, holds, begun wanted⟩
  settled wanted := .inl (filled.queued wanted)

end ResumableUpload
